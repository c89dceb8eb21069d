import WebBaseline.Parsing.Subtree

/-!
# The parse stack

Several readings of a text are followed at once.  Each is a *version*: the top
of a stack whose nodes are shared with the other versions, and may have more
than one node below them where readings have met again.  Nodes live in one
array and refer to each other by number.

`Stack.walk` goes down all paths from a version at once; popping, summaries
and the final collection of trees are instances of it.
-/

namespace WebBaseline.Parsing

open WebBaseline.Grammar WebBaseline.Text

/-- The state in which recovery looks for a usable token. -/
def recoveryState : Nat := 0

/-- The state at the start of a text. -/
def startState : Nat := 1

/-- A node of the stack: the state reached and the ways to reach it. -/
structure StackNode (σ : Type) where
  state : Nat
  /-- The nodes below, each with the tree between them; none where parsing broke off. -/
  links : List (Nat × Option (Subtree σ))
  position : Extent := {}
  cost : Nat := 0
  progress : Nat := 0
deriving Inhabited

/-- Whether a version is still followed. -/
inductive Activity where
  | active
  /-- It met a token that it cannot use. -/
  | paused
  | halted
deriving BEq, DecidableEq, Inhabited

/-- A state that recovery may return to. -/
structure SummaryEntry where
  position : Extent
  depth : Nat
  state : Nat

/-- One of the readings being followed. -/
structure Version (σ : Type) where
  top : Nat
  /-- The progress of the stack when this version last met an error. -/
  progressAtError : Nat := 0
  /-- The state left by the last token read by hand. -/
  external : Option σ := none
  activity : Activity := .active
  /-- The token at which a paused version stopped. -/
  lookahead : Option (Subtree σ) := none
  summary : Option (List SummaryEntry) := none
deriving Inhabited

/-- The stack with its versions. -/
structure Stack (σ : Type) where
  nodes : Array (StackNode σ)
  versions : Array (Version σ)
deriving Inhabited

namespace Stack

variable {σ : Type} [BEq σ]

/-- The limit on links of one node. -/
def maxLinks : Nat := 8

/-- The limit on paths followed by one walk. -/
def maxPaths : Nat := 64

/-- A stack with one version at the start of a text. -/
def initial : Stack σ where
  nodes := #[{ state := startState, links := [] }]
  versions := #[{ top := 0 }]

/-- A node by its number. -/
def node (s : Stack σ) (i : Nat) : StackNode σ := s.nodes.getD i default

/-- A version by its number. -/
def version (s : Stack σ) (v : Nat) : Version σ := s.versions.getD v default

/-- The top node of a version. -/
def topNode (s : Stack σ) (v : Nat) : StackNode σ := s.node (s.version v).top

/-- The state of a version. -/
def state (s : Stack σ) (v : Nat) : Nat := (s.topNode v).state

/-- The position of a version. -/
def position (s : Stack σ) (v : Nat) : Extent := (s.topNode v).position

/-- Whether a version is followed. -/
def isActive (s : Stack σ) (v : Nat) : Bool :=
  v < s.versions.size && (s.version v).activity == .active

/-- Change a version. -/
def modifyVersion (s : Stack σ) (v : Nat) (f : Version σ → Version σ) : Stack σ :=
  { s with versions := s.versions.modify v f }

/-- Drop a version; those after it move up. -/
def removeVersion (s : Stack σ) (v : Nat) : Stack σ :=
  { s with versions := s.versions.eraseIdxIfInBounds v }

/-- Stop following a version. -/
def halt (s : Stack σ) (v : Nat) : Stack σ := s.modifyVersion v ({ · with activity := .halted })

/-- Push a tree, or a break if there is none, onto a version. -/
def push (s : Stack σ) (v : Nat) (tree : Option (Subtree σ)) (state : Nat) : Stack σ :=
  let top := (s.version v).top
  let below := s.node top
  let pushed : StackNode σ := match tree with
    | none => { below with state, links := [(top, none)] }
    | some t =>
      { state, links := [(top, some t)]
        position := below.position + t.total
        cost := below.cost + t.cost
        progress := below.progress + t.progress }
  let number := s.nodes.size
  { nodes := s.nodes.push pushed
    versions := s.versions.modify v fun x =>
      { x with
        top := number
        progressAtError := if tree.isNone then pushed.progress else x.progressAtError } }

/-- Move a later version into the place of an earlier one. -/
def renumber (s : Stack σ) (old new : Nat) : Stack σ :=
  if old == new then s
  else
    let source := s.version old
    let target := s.version new
    let moved := { source with summary := source.summary.or target.summary }
    { s with versions := (s.versions.set! new moved).eraseIdxIfInBounds old }

/-- A copy of a version, as the last one. -/
def copyVersion (s : Stack σ) (v : Nat) : Nat × Stack σ :=
  (s.versions.size, { s with versions := s.versions.push { s.version v with summary := none } })

/-- Exchange two versions. -/
def swap (s : Stack σ) (v w : Nat) : Stack σ :=
  { s with versions := s.versions.swapIfInBounds v w }

/-! ### Joining versions -/

/-- Add a way down to a node.  A way that is equivalent to an old one is
dropped, after what lies below the two has been joined. -/
def addLink (s : Stack σ) (i : Nat) (link : Nat × Option (Subtree σ)) : Nat → Stack σ
  | 0 => s
  | fuel + 1 =>
    if link.1 == i then s
    else
      let n := s.node i
      let below := s.node link.1
      let same := n.links.find? fun old =>
        Subtree.equivalent old.2 link.2 &&
          (old.1 == link.1 ||
            (let o := s.node old.1
             o.state == below.state && o.position.bytes == below.position.bytes &&
               o.cost == below.cost))
      match same with
      | some old =>
        if old.1 == link.1 then s
        else below.links.foldl (fun s l => addLink s old.1 l fuel) s
      | none =>
        if maxLinks ≤ n.links.length then s
        else
          let progress := below.progress + (match link.2 with | some t => t.progress | none => 0)
          { s with nodes := s.nodes.modify i fun n =>
              { n with links := n.links ++ [link], progress := max n.progress progress } }

/-- Whether two versions stand at the same place in the same state at the same cost. -/
def canMerge (s : Stack σ) (v w : Nat) : Bool :=
  let x := s.version v
  let y := s.version w
  let a := s.node x.top
  let b := s.node y.top
  x.activity == .active && y.activity == .active && a.state == b.state &&
    a.position.bytes == b.position.bytes && a.cost == b.cost && x.external == y.external

/-- Join the second version into the first, if they agree. -/
def merge (s : Stack σ) (v w : Nat) : Option (Stack σ) :=
  if s.canMerge v w then
    let top := (s.version v).top
    let fuel := s.nodes.size + 1
    let s := (s.topNode w).links.foldl (fun s l => s.addLink top l fuel) s
    let s := if (s.node top).state == recoveryState then
        s.modifyVersion v fun x => { x with progressAtError := (s.node top).progress }
      else s
    some (s.removeVersion w)
  else none

/-- Join a version into the first of some earlier ones that agrees with it. -/
def mergeInto (s : Stack σ) (w : Nat) : List Nat → Option (Stack σ)
  | [] => none
  | v :: rest => match s.merge v w with
    | some s => some s
    | none => s.mergeInto w rest

/-! ### Walking down -/

/-- A path from the top of a version down to a node. -/
structure Path (σ : Type) where
  node : Nat
  /-- The trees on the way, the lowest first. -/
  trees : List (Subtree σ) := []
  /-- How many of them are not extra; a break counts as one. -/
  count : Nat := 0

/-- What to do with a path. -/
structure Decision where
  take : Bool
  stop : Bool

/-- One level further down a link. -/
def Path.along (p : Path σ) (link : Nat × Option (Subtree σ)) : Path σ :=
  match link.2 with
  | none => { p with node := link.1, count := p.count + 1 }
  | some t =>
    { node := link.1, trees := t :: p.trees
      count := if t.info.extra then p.count else p.count + 1 }

/-- Decide about every path of one level and lengthen those that go on.  The
first link of a node continues its path in place; the others are appended. -/
def walkLevel (s : Stack σ) {α : Type} (decide : α → Path σ → Decision × α) :
    List (Path σ) → α → Nat → List (Path σ) × List (Path σ) × List (Path σ) × α
  | [], acc, _ => ([], [], [], acc)
  | p :: rest, acc, size =>
    let links := (s.node p.node).links
    let (d, acc) := decide acc p
    match links with
    | first :: more =>
      if d.stop then
        let (inPlace, added, taken, acc) := walkLevel s decide rest acc (size - 1)
        (inPlace, added, if d.take then p :: taken else taken, acc)
      else
        let extra := more.take (maxPaths - size)
        let (inPlace, added, taken, acc) := walkLevel s decide rest acc (size + extra.length)
        (p.along first :: inPlace, extra.map p.along ++ added,
          if d.take then p :: taken else taken, acc)
    | [] =>
      let (inPlace, added, taken, acc) := walkLevel s decide rest acc (size - 1)
      (inPlace, added, if d.take then p :: taken else taken, acc)

/-- Walk down all paths; the result lists those taken, in the order of being taken. -/
def walkFrom (s : Stack σ) {α : Type} (decide : α → Path σ → Decision × α) :
    Nat → List (Path σ) → α → List (Path σ) × α
  | 0, _, acc => ([], acc)
  | _, [], acc => ([], acc)
  | fuel + 1, paths, acc =>
    let (inPlace, added, taken, acc) := walkLevel s decide paths acc paths.length
    let (more, acc) := walkFrom s decide fuel (inPlace ++ added) acc
    (taken ++ more, acc)

/-- Walk down all paths from the top of a version. -/
def walk (s : Stack σ) {α : Type} (v : Nat) (decide : α → Path σ → Decision × α) (acc : α) :
    List (Path σ) × α :=
  walkFrom s decide (s.nodes.size + 1) [{ node := (s.version v).top }] acc

/-! ### Popping -/

/-- Trees taken off a version: a new version stands on the node below them. -/
structure Slice (σ : Type) where
  trees : List (Subtree σ)
  version : Nat
deriving Inhabited

/-- Put a slice behind the last one of the same version. -/
def insertSlice (slices : List (Slice σ)) (slice : Slice σ) : List (Slice σ) :=
  let after := slices.reverse.takeWhile (·.version != slice.version)
  slices.take (slices.length - after.length) ++ slice :: after.reverse

/-- Give a taken path a version like `source`, or the one of a slice that ends in the same node. -/
def addSlice (source : Version σ) (acc : List (Slice σ) × Stack σ) (p : Path σ) :
    List (Slice σ) × Stack σ :=
  let (slices, s) := acc
  match slices.reverse.find? fun (x : Slice σ) => (s.version x.version).top == p.node with
  | some x => (insertSlice slices { trees := p.trees, version := x.version }, s)
  | none =>
    let fresh : Version σ :=
      { top := p.node, progressAtError := source.progressAtError, external := source.external }
    (slices ++ [{ trees := p.trees, version := s.versions.size }],
      { s with versions := s.versions.push fresh })

/-- Give every taken path a version; paths to one node share it. -/
def slice (s : Stack σ) (v : Nat) (paths : List (Path σ)) : List (Slice σ) × Stack σ :=
  paths.foldl (addSlice (s.version v)) ([], s)

/-- Take a number of trees off a version, extras not counted. -/
def popCount (s : Stack σ) (v count : Nat) : List (Slice σ) × Stack σ :=
  let (paths, _) := s.walk v (fun (_ : Unit) p =>
    (⟨p.count == count, p.count == count⟩, ())) ()
  s.slice v paths

/-- Take all trees off a version. -/
def popAll (s : Stack σ) (v : Nat) : List (Slice σ) × Stack σ :=
  let (paths, _) := s.walk v (fun (_ : Unit) p => (⟨(s.node p.node).links.isEmpty, false⟩, ())) ()
  s.slice v paths

/-- Take a damaged region off the top of a version, if there is one. -/
def popError (s : Stack σ) (v : Nat) : Option (Subtree σ) × Stack σ :=
  let isError (t : Subtree σ) : Bool := t.info.label == .error
  if (s.topNode v).links.any fun l => match l.2 with | some t => isError t | none => false then
    let topmost (found : Bool) (p : Path σ) : Decision × Bool :=
      match p.trees with
      | [] => (⟨false, false⟩, found)
      | t :: _ => if !found && isError t then (⟨true, true⟩, true) else (⟨false, true⟩, found)
    let (paths, _) := s.walk v topmost false
    match s.slice v paths with
    | (x :: _, s) => (x.trees.head?, s.renumber x.version v)
    | ([], s) => (none, s)
  else (none, s)

/-- How deep a summary looks. -/
def summaryDepth : Nat := 16

/-- Record the states below a version, for recovery to return to. -/
def recordSummary (s : Stack σ) (v : Nat) : Stack σ :=
  let note (entries : List SummaryEntry) (p : Path σ) : Decision × List SummaryEntry :=
    if summaryDepth < p.count then (⟨false, true⟩, entries)
    else
      let n := s.node p.node
      let recent := entries.reverse.takeWhile fun e => p.count ≤ e.depth
      let known := recent.any fun e => e.depth == p.count && e.state == n.state
      if known then (⟨false, false⟩, entries)
      else
        let entry := { position := n.position, depth := p.count, state := n.state }
        (⟨false, false⟩, entries ++ [entry])
  let (_, entries) := s.walk v note []
  s.modifyVersion v ({ · with summary := some entries })

/-! ### Measures of a version -/

/-- What the errors of a version cost so far. -/
def errorCost (s : Stack σ) (v : Nat) : Nat :=
  let x := s.version v
  let n := s.node x.top
  let broken := match n.links with
    | [] => true
    | (_, t) :: _ => t.isNone
  n.cost + (if x.activity == .paused || (n.state == recoveryState && broken)
    then Cost.recovery else 0)

/-- The progress of a version since its last error. -/
def progressSinceError (s : Stack σ) (v : Nat) : Nat :=
  (s.topNode v).progress - (s.version v).progressAtError

/-- A version that has fallen back behind its last error counts from where it is. -/
def noteProgress (s : Stack σ) (v : Nat) : Stack σ :=
  let progress := (s.topNode v).progress
  s.modifyVersion v fun x => { x with progressAtError := min x.progressAtError progress }

/-- Whether text was read, without error, since the last error. -/
def hasAdvanced (s : Stack σ) (v : Nat) : Bool :=
  let rec down : Nat → StackNode σ → Bool
    | 0, _ => false
    | fuel + 1, n => match n.links with
      | (below, some t) :: _ =>
        if 0 < t.total.bytes then true
        else if (s.version v).progressAtError < n.progress && t.cost == 0 then
          down fuel (s.node below)
        else false
      | _ => false
  (s.topNode v).cost == 0 || down (s.nodes.size + 1) (s.topNode v)

end Stack

end WebBaseline.Parsing
