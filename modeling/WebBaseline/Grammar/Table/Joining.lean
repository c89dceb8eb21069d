import Std.Data.HashMap
import WebBaseline.Grammar.Overlap
import WebBaseline.Grammar.Table.State

/-!
# Fewer states

Two ways to make a table small:

* states with the same core are joined when neither gains a token that could
  be mistaken for one of its own;
* a state that can only reduce one hidden symbol to another is bypassed.
-/

namespace WebBaseline.Grammar

namespace Table

/-! ### Joining states -/

/-- Whether a token that a state lacks could disturb it. -/
def disturbs (g : Normal) (overlaps : Array (Array Overlap)) (token : Nat) (s : State) : Bool :=
  let n := g.terminals.size
  if token == 0 then false
  else if n < token then true
  else if g.externals.any (·.terminal == some (token - 1)) then true
  else (List.range n).any fun t =>
    !(s.actions.getD (1 + t) []).isEmpty && (((overlaps.getD (token - 1) #[]).getD t {}).collides)

/-- Actions that agree but for the numbers of the states they lead to. -/
def sameShape : List Action → List Action → Bool
  | [], [] => true
  | .shift _ r :: xs, .shift _ s :: ys => r == s && sameShape xs ys
  | x :: xs, y :: ys => x == y && sameShape xs ys
  | _, _ => false

/-- Whether two states of one core cannot be joined, whatever their successors are. -/
def clash (g : Normal) (overlaps : Array (Array Overlap)) (s t : State) : Bool :=
  (List.range (tokenCount g)).any fun i =>
    match s.actions.getD i [], t.actions.getD i [] with
    | [], [] => false
    | [], _ => disturbs g overlaps i s
    | _, [] => disturbs g overlaps i t
    | xs, ys => !sameShape xs ys

/-- The state that the last of some actions leads to. -/
def shiftTarget (actions : List Action) : Option Nat :=
  match actions.getLast? with
  | some (.shift t _) => some t
  | _ => none

/-- Whether two states have successors in different groups. -/
def divergent (group : Array Nat) (s t : State) : Bool :=
  let tokens := (s.actions.zip t.actions).any fun (x, y) =>
    match shiftTarget x, shiftTarget y with
    | some i, some j => group.getD i 0 != group.getD j 0
    | _, _ => false
  tokens || (s.gotos.zip t.gotos).any fun (i, j) =>
    i != 0 && j != 0 && group.getD i 0 != group.getD j 0

/-- The members of a group that must leave it, each because of one that stays. -/
def leaving (apart : Nat → Nat → Bool) : List Nat → List Nat → List Nat
  | [], out => out
  | i :: rest, out =>
    if out.contains i then leaving apart rest out
    else leaving apart rest (out ++ rest.filter fun j => !out.contains j && apart i j)

/-- Split the groups from number `k` on, new groups included, once each. -/
def splitGroups (apart : Array Nat → Nat → Nat → Bool) : Nat → Nat →
    Array (List Nat) → Array Nat → Bool → Array (List Nat) × Array Nat × Bool
  | 0, _, groups, group, changed => (groups, group, changed)
  | fuel + 1, k, groups, group, changed =>
    if k < groups.size then
      let members := groups.getD k []
      let out := leaving (apart group) members []
      if out.isEmpty then splitGroups apart fuel (k + 1) groups group changed
      else
        let stay := members.filter fun i => !out.contains i
        let number := groups.size
        let groups := (groups.set! k stay).push out
        let group := out.foldl (fun g i => g.set! i number) group
        splitGroups apart fuel (k + 1) groups group true
    else (groups, group, changed)

/-- Split until all members of every group have successors in the same groups. -/
def refine (apart : Array Nat → Nat → Nat → Bool) (bound : Nat) :
    Nat → Array (List Nat) → Array Nat → Array (List Nat) × Array Nat
  | 0, groups, group => (groups, group)
  | fuel + 1, groups, group =>
    match splitGroups apart bound 0 groups group false with
    | (groups, group, true) => refine apart bound fuel groups group
    | (groups, group, false) => (groups, group)

/-- Join the states of one core that agree. -/
def join (g : Normal) (overlaps : Array (Array Overlap)) (kernels : Array Kernel)
    (states : Array State) : Array State :=
  let n := states.size
  let addState (acc : Std.HashMap (List Nat) Nat × Array (List Nat) × Array Nat) (i : Nat) :
      Std.HashMap (List Nat) Nat × Array (List Nat) × Array Nat :=
    let (ids, groups, group) := acc
    let core := (kernels.getD i []).map (·.1)
    match ids[core]? with
    | some k => (ids, groups.modify k (· ++ [i]), group.push k)
    | none => (ids.insert core groups.size, groups.push [i], group.push groups.size)
  let cores := (List.range n).foldl addState ({}, #[], #[])
  let state (i : Nat) : State := states.getD i default
  let (groups, group, _) := splitGroups (fun _ i j => clash g overlaps (state i) (state j))
    (2 * n) 0 cores.2.1 cores.2.2 false
  let (groups, group) := refine (fun group i j => divergent group (state i) (state j))
    (2 * n) n groups group
  let rename : Action → Action
    | .shift t r => .shift (group.getD t 0) r
    | a => a
  let empty : State :=
    { actions := Array.replicate (tokenCount g) [], gotos := Array.replicate g.nonterminals.size 0 }
  let add (joined : State) (i : Nat) : State :=
    { actions := joined.actions.zipWith
        (fun x y => if x.isEmpty then y.map rename else x) (state i).actions
      gotos := joined.gotos.zipWith
        (fun x y => if x == 0 && y != 0 then group.getD y 0 else x) (state i).gotos }
  groups.map fun members => members.mergeSort.foldl add empty

/-! ### Bypassing unit reductions -/

/-- The hidden variable that a state only ever reduces its one symbol to. -/
def unitVariable (g : Normal) (s : State) : Option Nat :=
  let actions := (s.actions.toList.flatten.filter (· != .shiftExtra)).eraseDups
  match actions with
  | [.reduce v 1 0] =>
    let hidden := match g.nonterminals[v]? with
      | some x => x.visibility != .named
      | none => false
    let special := g.extras.contains (.variable v) ||
      g.defaultAliases.any (·.1 == .variable v)
    if hidden && !special then some v else none
  | _ => none

/-- Where a transition leads once states that only rename are skipped. -/
def skipUnits (units : Array (Option Nat)) (gotos : Array Nat) : Nat → Nat → Nat
  | 0, t => t
  | fuel + 1, t =>
    match units.getD t none with
    | some v => skipUnits units gotos fuel (gotos.getD v 0)
    | none => t

/-- Lead every transition past the states that only rename. -/
def bypassUnits (g : Normal) (states : Array State) : Array State :=
  let units := states.map (unitVariable g)
  states.map fun s =>
    let target := skipUnits units s.gotos states.size
    { actions := s.actions.map fun entry => entry.map fun a => match a with
        | .shift t r => .shift (target t) r
        | a => a
      gotos := s.gotos.map fun t => if t == 0 then 0 else target t }

end Table

end WebBaseline.Grammar
