import Std.Data.HashMap
import WebBaseline.Grammar.Table.Edge
import WebBaseline.Grammar.Table.Item

/-!
# States of a grammar

The states of the canonical LR(1) automaton.  A state is known by its kernel:
the items that were reached by a symbol, with the tokens that may follow them.
Conflicts are settled by precedence and associativity when a state is expanded.
-/

namespace WebBaseline.Grammar

namespace Table

/-- The kernel of a state: items with the tokens that may follow them. -/
abbrev Kernel := List (Nat × Nat)

/-- What the construction of states needs to know. -/
structure Context where
  normal : Normal
  items : Array Item
  /-- The items at the start of the productions of each variable. -/
  initial : Array (List Nat)
  firsts : Array Nat
deriving Inhabited

/-- Let some tokens follow an item: with the items to look at again, the sets of tokens and the
items that are present. -/
def allow (set : Nat) (acc : List Nat × Array Nat × List Nat) (j : Nat) :
    List Nat × Array Nat × List Nat :=
  let (work, sets, present) := acc
  let old := sets.getD j 0
  let new := old ||| set
  if new == old then (work, sets, present)
  else
    (if work.contains j then work else j :: work, sets.set! j new,
      if old == 0 then j :: present else present)

/-- Add the items that may start where another item stands. -/
def close (c : Context) : Nat → List Nat → Array Nat → List Nat → Array Nat × List Nat
  | 0, _, sets, present => (sets, present)
  | _, [], sets, present => (sets, present)
  | fuel + 1, i :: work, sets, present =>
    let item := c.items.getD i default
    match item.next with
    | some { symbol := .variable v, .. } =>
      let set := match item.afterNext with
        | some t => edge c.normal c.firsts t.symbol
        | none => sets.getD i 0
      let (work, sets, present) := (c.initial.getD v []).foldl (allow set) (work, sets, present)
      close c fuel work sets present
    | _ => close c fuel work sets present

/-- All items of a state, with the tokens that may follow them. -/
def closure (c : Context) (k : Kernel) : Kernel :=
  let sets := k.foldl (fun s (i, set) => s.set! i set) (Array.replicate c.items.size 0)
  let start := k.map (·.1)
  let (sets, present) := close c (c.items.size * c.items.size + 1) start sets start
  (present.mergeSort).map fun i => (i, sets.getD i 0)

/-- The states found so far. -/
structure Building where
  ids : Std.HashMap Kernel Nat := {}
  kernels : Array Kernel := #[]
  states : Array State := #[]
deriving Inhabited

/-- The number of the state of a kernel. -/
def Building.stateOf (b : Building) (k : Kernel) : Nat × Building :=
  match b.ids[k]? with
  | some i => (i, b)
  | none =>
    (b.kernels.size,
      { b with ids := b.ids.insert k b.kernels.size, kernels := b.kernels.push k })

/-- The reductions collected for one token of a state. -/
structure Reductions where
  actions : List Action := []
  precedence : Int := 0
  associativities : List (Option Associativity) := []
deriving Inhabited

/-- Add a reduction; one of higher precedence replaces the others. -/
def Reductions.add (r : Reductions) (a : Action) (i : Item) : Reductions :=
  if r.actions.isEmpty || r.precedence < i.precedence then
    { actions := [a], precedence := i.precedence, associativities := [i.associativity] }
  else if r.precedence == i.precedence then
    { r with
      actions := r.actions ++ [a]
      associativities := i.associativity :: r.associativities }
  else r

/-- Settle a conflict between reading a token and reducing.  A conflict that
only says where a repetition is split stays, with the shift marked. -/
def settle (c : Context) (closed : Kernel) (token : Nat) (r : Reductions) (target : Nat) :
    List Action :=
  let involved := closed.filterMap fun (i, set) =>
    let item := c.items.getD i default
    match item.next with
    | some t =>
      if 0 < item.dot && (edge c.normal c.firsts t.symbol).testBit token
      then some (item, true) else none
    | none => if set.testBit token then some (item, false) else none
  let heads := (involved.filterMap (·.1.head)).eraseDups
  let isAuxiliary (v : Nat) : Bool := match c.normal.nonterminals[v]? with
    | some v => v.visibility == .auxiliary
    | none => false
  let shift := Action.shift target false
  match heads with
  | [v] =>
    if isAuxiliary v then r.actions ++ [.shift target true] else byRank shift involved
  | _ => byRank shift involved
where
  byRank (shift : Action) (involved : List (Item × Bool)) : List Action :=
    let ranks := involved.filterMap fun (i, shifts) => if shifts then some i.precedence else none
    let less := ranks.any (· < r.precedence)
    let more := ranks.any (r.precedence < ·)
    let kept :=
      if more && !less then [shift]
      else if less && !more then r.actions
      else if !less && !more then
        match r.associativities.eraseDups with
        | [some .left] => r.actions
        | [some .right] => [shift]
        | _ => r.actions ++ [shift]
      else r.actions ++ [shift]
    kept.eraseDups

/-- Put the successor of an item into the group of its symbol. -/
def addSuccessor (c : Context) (groups : Array (Nat × Kernel)) (x : Nat × Nat) :
    Array (Nat × Kernel) :=
  let (i, set) := x
  let item := c.items.getD i default
  match item.next with
  | none => groups
  | some t =>
    let id := tokenId c.normal t.symbol
    let j := item.successor
    match groups.findIdx? (·.1 == id) with
    | none => groups.push (id, [(j, set)])
    | some g => groups.modify g fun (id, k) =>
      (id, if k.any (·.1 == j)
        then k.map fun (x, s) => if x == j then (x, s ||| set) else (x, s)
        else (j, set) :: k)

/-- Group the successors of the items of a state by symbol number. -/
def successors (c : Context) (closed : Kernel) : List (Nat × Kernel) :=
  let grouped := closed.foldl (addSuccessor c) #[]
  (grouped.toList.map fun (id, k) => (id, k.mergeSort fun x y => x.1 ≤ y.1)).mergeSort
    fun x y => x.1 ≤ y.1

/-- Every state keeps extras. -/
def addExtras (g : Normal) (actions : Array (List Action)) : Array (List Action) :=
  g.extras.foldl (fun actions e => actions.set! (tokenId g e) [.shiftExtra]) actions

/-- The reductions of a state by token. -/
def reductionsOf (c : Context) (closed : Kernel) : Array Reductions :=
  let count := tokenCount c.normal
  let add (rs : Array Reductions) (x : Nat × Nat) : Array Reductions :=
    let item := c.items.getD x.1 default
    match item.next with
    | some _ => rs
    | none =>
      let action := match item.head with
        | none => .accept
        | some v => .reduce v item.dot item.aliasing
      (members count x.2).foldl (fun rs t => rs.modify t fun r => r.add action item) rs
  closed.foldl add (Array.replicate count {})

/-- Enter the transition to a successor with a symbol into a state under way. -/
def addTransition (c : Context) (closed : Kernel) (reductions : Array Reductions)
    (acc : State × Building) (x : Nat × Kernel) : State × Building :=
  let (s, b) := acc
  let (id, k) := x
  let (target, b) := b.stateOf k
  let count := tokenCount c.normal
  if id < count then
    let r := reductions.getD id {}
    let entry := if r.actions.isEmpty then [.shift target false] else settle c closed id r target
    ({ s with actions := s.actions.set! id entry }, b)
  else ({ s with gotos := s.gotos.set! (id - count) target }, b)

/-- Compute the actions of the next unfinished state. -/
def expand (c : Context) (b : Building) : Building :=
  let closed := closure c (b.kernels.getD b.states.size [])
  let reductions := reductionsOf c closed
  let start : State :=
    { actions := reductions.map (·.actions)
      gotos := Array.replicate c.normal.nonterminals.size 0 }
  let (s, b) := (successors c closed).foldl (addTransition c closed reductions) (start, b)
  { b with states := b.states.push { s with actions := addExtras c.normal s.actions } }

/-- Expand states until none is left. -/
def expandAll (c : Context) : Nat → Building → Building
  | 0, b => b
  | fuel + 1, b => if b.states.size < b.kernels.size then expandAll c fuel (expand c b) else b

/-- A bound on the number of states. -/
def stateFuel : Nat := 100000

end Table

end WebBaseline.Grammar
