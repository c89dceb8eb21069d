import WebBaseline.Parsing.Reduction

/-!
# Recovery

A version that cannot use its token is repaired in three ways: a missing token is
inserted, the stack falls back to an earlier state that can use the token, or
the token is skipped.  Repairs compete by their cost.
-/

namespace WebBaseline.Parsing

open WebBaseline.Grammar WebBaseline.Text

variable {σ : Type} [BEq σ]

/-- Put a damaged region over the trees of a slice, if it leads back to the state `goal`.  With
the stack, the last version that did is passed on. -/
def Run.coverSlice (r : Run σ) (goal : Nat) (acc : Option Nat × Stack σ) (x : Stack.Slice σ) :
    Option Nat × Stack σ :=
  let (previous, stack) := acc
  if previous == some x.version then (previous, stack)
  else if stack.state x.version != goal then (previous, stack.halt x.version)
  else
    let (error, stack) := stack.popError x.version
    let trees := match error with
      | some t => t.children ++ x.trees
      | none => x.trees
    let (children, trailing) := Subtree.splitExtras trees
    let stack := if children.isEmpty then stack
      else stack.push x.version (some (Subtree.make r.language .error 0 true children)) goal
    let stack := trailing.foldl (fun s t => s.push x.version (some t) goal) stack
    (some x.version, stack)

/-- Fall back to an earlier state; what lies above it becomes a damaged region. -/
def Run.fallBack (r : Run σ) (v depth goal : Nat) : Bool × Run σ :=
  let (slices, stack) := r.stack.popCount v depth
  let (previous, stack) := slices.foldl (r.coverSlice goal) (none, stack)
  (previous.isSome, { r with stack })

/-- Try to fall back to one of the recorded states that can use the token. -/
def Run.tryFallBack (r : Run σ) (v : Nat) (lookahead : Subtree σ) (id versions : Nat)
    (position : Extent) (advanced : Bool) (cost : Nat) : List SummaryEntry → Bool × Run σ
  | [] => (false, r)
  | e :: rest =>
    if e.state == recoveryState || e.position.bytes == position.bytes then
      r.tryFallBack v lookahead id versions position advanced cost rest
    else
      let depth := if advanced then e.depth + 1 else e.depth
      let redundant := (List.range versions).any fun j =>
        r.stack.state j == e.state && (r.stack.position j).bytes == position.bytes
      if redundant then r.tryFallBack v lookahead id versions position advanced cost rest
      else
        let newCost := cost + e.depth * Cost.skippedNode +
          (position.bytes - e.position.bytes) * Cost.skippedByte +
          (position.rows - e.position.rows) * Cost.skippedLine
        let (better, r) := r.betterExists v false newCost
        if better then (false, r)
        else if (r.language.actions e.state id).isEmpty then
          r.tryFallBack v lookahead id versions position advanced cost rest
        else
          let (done, r) := r.fallBack v depth e.state
          if done then (true, r)
          else r.tryFallBack v lookahead id versions position advanced cost rest

/-- Remove the halted versions from a number on. -/
def Stack.sweep (s : Stack σ) (first : Nat) : Stack σ :=
  let later := s.versions.extract first s.versions.size
  { s with versions := s.versions.extract 0 first ++ later.filter (·.activity == .active) }

/-- Skip the token of a version in the recovery state. -/
def Run.skipToken (r : Run σ) (v : Nat) (lookahead : Subtree σ) (advanced : Bool) : Run σ :=
  let id := match lookahead.info.label with | .token id => id | _ => 0
  let last := (r.language.actions startState id).getLast?
  let isExtra := lookahead.info.label != .error && last == some .shiftExtra
  let token := if isExtra then lookahead.withExtra true else lookahead
  let run := Subtree.make r.language .skipped 0 false [token]
  let (run, stack) :=
    if advanced then
      let (slices, stack) := r.stack.popCount v 1
      match slices with
      | [] => (run, stack)
      | x :: more =>
        let stack := if more.isEmpty then stack
          else { stack with versions := stack.versions.extract 0 (x.version + 1) }
        (Subtree.make r.language .skipped 0 false (x.trees ++ [run]), stack.renumber x.version v)
    else (run, r.stack)
  let stack := stack.push v (some run) recoveryState
  let stack := match lookahead.info.external with
    | some state => stack.modifyVersion v ({ · with external := state })
    | none => stack
  { r with stack }

/-- Repair a version in the recovery state: fall back to a state that can use
the token, and also go on by skipping the token. -/
def Run.recover (r : Run σ) (v : Nat) (lookahead : Subtree σ) : Run σ :=
  let versions := r.stack.versions.size
  let r := { r with stack := r.stack.noteProgress v }
  let position := r.stack.position v
  let advanced := 0 < r.stack.progressSinceError v
  let cost := r.stack.errorCost v
  let isError := lookahead.info.label == .error
  let id := match lookahead.info.label with | .token id => id | _ => 0
  let (fellBack, r) := match (r.stack.version v).summary with
    | some entries =>
      if isError then (false, r)
      else r.tryFallBack v lookahead id versions position advanced cost entries
    | none => (false, r)
  let r := { r with stack := r.stack.sweep versions }
  if fellBack && (maxVersions < r.stack.versions.size || lookahead.info.changesState) then
    { r with stack := r.stack.halt v }
  else if lookahead.info.label == .token 0 then
    let root := Subtree.make r.language .error 0 false []
    { r with stack := r.stack.push v (some root) startState }.accept v lookahead
  else
    let newCost := cost + Cost.skippedNode + lookahead.total.bytes * Cost.skippedByte +
      lookahead.total.rows * Cost.skippedLine
    let (better, r) := r.betterExists v false newCost
    if better then { r with stack := r.stack.halt v }
    else r.skipToken v lookahead advanced

/-- Try to insert a token that is missing before the lookahead. -/
def Run.insertMissing (r : Run σ) (v id : Nat) (isError : Bool) : List Nat → Bool × Run σ
  | [] => (false, r)
  | missing :: rest =>
    let state := r.stack.state v
    let next := r.language.afterToken state missing
    let reduces := !isError && match r.language.actions next id with
      | .reduce .. :: _ => true
      | _ => false
    if next == 0 || next == state || !reduces then r.insertMissing v id isError rest
    else
      let (w, stack) := r.stack.copyVersion v
      let leaf := match Subtree.leaf r.language (.token missing) {} {} with
        | .node info cs => Subtree.node { info with missing := true } cs
      let r := { r with stack := stack.push w (some leaf) next }
      let (can, r) := r.reduceAll w id
      if can then (true, r) else r.insertMissing v id isError rest

/-- Begin the repair of a version that cannot use its token. -/
def Run.handleError (r : Run σ) (v : Nat) (lookahead : Subtree σ) : Run σ :=
  let before := r.stack.versions.size
  let (_, r) := r.reduceAll v 0
  let count := r.stack.versions.size
  let isError := lookahead.info.label == .error
  let id := match lookahead.info.label with | .token id => id | _ => 0
  let candidates := (List.range r.language.tokenCount).drop 1
  let broken := v :: (List.range count).filter fun w => before ≤ w
  let breakOff (acc : Bool × Run σ) (w : Nat) : Bool × Run σ :=
    let (inserted, r) := if acc.1 then acc else acc.2.insertMissing w id isError candidates
    (inserted, { r with stack := r.stack.push w none recoveryState })
  let (_, r) := broken.foldl breakOff (false, r)
  let stack := (List.range (count - before)).foldl
    (fun stack _ => (stack.merge v before).getD stack) r.stack
  let r := { r with stack := stack.recordSummary v }
  r.recover v lookahead

end WebBaseline.Parsing
