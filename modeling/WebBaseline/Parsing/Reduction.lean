import WebBaseline.Parsing.Run

/-!
# Reducing

A reduction replaces the last trees of a version by a node over them.  Where
versions have been joined there are several ways to do so, and each ending of
them is a version.  At the end of the text, what is left is put under a root.
-/

namespace WebBaseline.Parsing

open WebBaseline.Grammar WebBaseline.Text

variable {σ : Type} [BEq σ]

/-! ### Nodes -/

/-- Build the node of one group of slices that share a version, and choose between them. -/
def Run.chooseChildren (r : Run σ) (label : Label) (aliasing : Nat) :
    List (List (Subtree σ)) → Subtree σ × List (Subtree σ)
  | [] => (Subtree.make r.language label aliasing false [], [])
  | trees :: rest =>
    let (children, trailing) := Subtree.splitExtras trees
    let better (best : Subtree σ × List (Subtree σ)) (trees : List (Subtree σ)) :
        Subtree σ × List (Subtree σ) :=
      let (children, trailing) := Subtree.splitExtras trees
      if Subtree.replaces best.1 (Subtree.make r.language label 0 false children) then
        (Subtree.make r.language label aliasing false children, trailing)
      else best
    rest.foldl better (Subtree.make r.language label aliasing false children, trailing)

/-- Group neighbouring slices of one version. -/
def groupSlices : List (Stack.Slice σ) → List (Nat × List (List (Subtree σ)))
  | [] => []
  | x :: rest => match groupSlices rest with
    | (v, group) :: more =>
      if v == x.version then (v, x.trees :: group) :: more
      else (x.version, [x.trees]) :: (v, group) :: more
    | [] => [(x.version, [x.trees])]

/-- Push the node over the slices of one version, and join the version with an earlier one if
that can be.  With the stack, the number of versions removed so far is passed on. -/
def Run.reduceGroup (r : Run σ) (v head aliasing : Nat) (acc : Nat × Stack σ)
    (x : Nat × List (List (Subtree σ))) : Nat × Stack σ :=
  let (removed, stack) := acc
  let w := x.1 - removed
  if maxVersions + versionOverflow < w then (removed + 1, stack.removeVersion w)
  else
    let (parent, trailing) := r.chooseChildren (.variable head) aliasing x.2
    let next := r.language.afterVariable (stack.state w) head
    let stack := stack.push w (some parent) next
    let stack := trailing.foldl (fun s t => s.push w (some t) next) stack
    match stack.mergeInto w ((List.range w).filter (· != v)) with
    | some stack => (removed + 1, stack)
    | none => (removed, stack)

/-- Replace the last trees of a version by a node over them.  The result is the
first version that this creates. -/
def Run.reduce (r : Run σ) (v head count aliasing : Nat) : Option Nat × Run σ :=
  let before := r.stack.versions.size
  let (slices, stack) := r.stack.popCount v count
  let (_, stack) := (groupSlices slices).foldl (r.reduceGroup v head aliasing) (0, stack)
  (if before < stack.versions.size then some before else none, { r with stack })

/-- Collect a reduction, with its variable, count and aliasing, unless it replaces nothing or one
like it is there. -/
def addReduction (acc : List (Nat × Nat × Nat)) : Action → List (Nat × Nat × Nat)
  | .reduce h n g =>
    if n == 0 || acc.any fun (h', n', _) => h' == h && n' == n then acc
    else acc ++ [(h, n, g)]
  | _ => acc

/-- Whether an action reads on. -/
def readsOn : Action → Bool
  | .shift _ repetition => !repetition
  | .recover => true
  | _ => false

/-- The versions of a parse while their reductions are performed. -/
structure Reducing (σ : Type) where
  run : Run σ
  /-- The version to look at next. -/
  version : Nat
  round : Nat := 0
  /-- Whether some version can read on. -/
  canRead : Bool := false

/-- Join a version to an earlier new one, or perform the reductions that some token would allow (or
the given token, if it is not 0).  Versions are new from the number `before` on. -/
def Reducing.step (x : Reducing σ) (start token before : Nat) : Reducing σ :=
  let r := x.run
  let v := x.version
  let x := { x with round := x.round + 1 }
  match r.stack.mergeInto v ((List.range v).filter (before ≤ ·)) with
  | some stack => { x with run := { r with stack } }
  | none =>
    let tokens := if token != 0 then [token] else (List.range r.language.tokenCount).drop 1
    let actions := tokens.flatMap (r.language.actions (r.stack.state v))
    let next := if v == start then r.stack.versions.size else v + 1
    let (last, r) := (actions.foldl addReduction []).foldl
      (fun (_, r) (h, n, g) => r.reduce v h n g) (none, r)
    let leave : Reducing σ :=
      { x with
        run := if token != 0 then { r with stack := r.stack.removeVersion v } else r
        version := next }
    if actions.any readsOn then { x with run := r, version := next, canRead := true }
    else match last with
      | some w =>
        if x.round ≤ maxVersions then { x with run := { r with stack := r.stack.renumber w v } }
        else leave
      | none => leave

/-- Look at all versions, new ones included. -/
def Reducing.steps (start token before : Nat) : Nat → Reducing σ → Reducing σ
  | 0, x => x
  | fuel + 1, x =>
    if x.run.stack.versions.size ≤ x.version then x
    else steps start token before fuel (x.step start token before)

/-- Perform all reductions that some token would allow (or the given token, if
it is not 0), and tell whether a version is left that can read on. -/
def Run.reduceAll (r : Run σ) (start token : Nat) : Bool × Run σ :=
  let x := Reducing.steps start token r.stack.versions.size (r.stack.nodes.size + 1000)
    { run := r, version := start }
  (x.canRead, x.run)

/-! ### Accepting -/

/-- The root over all trees of a version: the last one that is no extra is
opened, and its children take its place. -/
def Run.rootOf (r : Run σ) (trees : List (Subtree σ)) : Option (Subtree σ) :=
  let after := (trees.reverse.takeWhile (·.info.extra)).reverse
  match (trees.take (trees.length - after.length)).getLast? with
  | none => none
  | some (.node info cs) =>
    let before := trees.take (trees.length - after.length - 1)
    some (Subtree.make r.language info.label info.aliasing false (before ++ cs ++ after))

/-- Finish with the root over all trees of a version, unless a better one is there. -/
def Run.finish (r : Run σ) (trees : List (Subtree σ)) : Run σ :=
  match r.rootOf trees with
  | none => r
  | some root =>
    let finished := match r.finished with
      | none => root
      | some old => if Subtree.replaces old root then root else old
    { r with finished := some finished, accepted := r.accepted + 1 }

/-- Finish a version at the end of the text. -/
def Run.accept (r : Run σ) (v : Nat) (lookahead : Subtree σ) : Run σ :=
  let stack := r.stack.push v (some lookahead) startState
  let (slices, stack) := stack.popAll v
  let r := slices.foldl (fun r x => r.finish x.trees) r
  let stack := match slices with
    | x :: _ => stack.removeVersion x.version
    | [] => stack
  { r with stack := stack.halt v }

end WebBaseline.Parsing
