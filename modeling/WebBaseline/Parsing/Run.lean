import WebBaseline.Parsing.Stack

/-!
# Parses under way

A parse holds the versions of the stack that are still followed and the best
tree that has been finished.  Versions compete: a cheaper one is preferred, and
one that has fallen far behind is dropped.
-/

namespace WebBaseline.Parsing

open WebBaseline.Grammar WebBaseline.Text

/-- How many versions are followed at once. -/
def maxVersions : Nat := 6

/-- By how many versions a reduction may exceed the limit for a moment. -/
def versionOverflow : Nat := 4

/-- From this difference on, weighted by progress, a cheaper version wins at once. -/
def decisiveDifference : Nat := 18 * Cost.skippedNode

/-- A parse under way. -/
structure Run (σ : Type) where
  language : Language σ
  source : Source
  stack : Stack σ
  finished : Option (Subtree σ) := none
  accepted : Nat := 0

variable {σ : Type} [BEq σ]


/-- What versions are compared by. -/
structure Standing where
  cost : Nat
  progress : Nat
  damaged : Bool

/-- The outcome of a comparison; `take` drops the other version at once. -/
inductive Preference where
  | takeLeft
  | preferLeft
  | none
  | preferRight
  | takeRight
deriving BEq, DecidableEq

/-- Compare two versions. -/
def Standing.compare (a b : Standing) : Preference :=
  if !a.damaged && b.damaged then
    if a.cost < b.cost then .takeLeft else .preferLeft
  else if a.damaged && !b.damaged then
    if b.cost < a.cost then .takeRight else .preferRight
  else if a.cost < b.cost then
    if decisiveDifference < (b.cost - a.cost) * (1 + a.progress) then .takeLeft else .preferLeft
  else if b.cost < a.cost then
    if decisiveDifference < (a.cost - b.cost) * (1 + b.progress) then .takeRight else .preferRight
  else .none

/-- The standing of a version. -/
def Stack.standing (s : Stack σ) (v : Nat) : Standing × Stack σ :=
  let s := s.noteProgress v
  let paused := (s.version v).activity == .paused
  ({ cost := s.errorCost v + (if paused then Cost.skippedNode else 0)
     progress := s.progressSinceError v
     damaged := paused || s.state v == recoveryState }, s)

/-- Whether, at the given cost, another version would be better than this one. -/
def Run.betterExists (r : Run σ) (v : Nat) (damaged : Bool) (cost : Nat) : Bool × Run σ :=
  match r.finished with
  | some t => if t.cost ≤ cost then (true, r) else others r
  | none => others r
where
  others (r : Run σ) : Bool × Run σ :=
    let stack := r.stack.noteProgress v
    let mine : Standing := { cost, progress := stack.progressSinceError v, damaged }
    let (found, stack) := (List.range stack.versions.size).foldl (other mine) (false, stack)
    (found, { r with stack })
  other (mine : Standing) (acc : Bool × Stack σ) (i : Nat) : Bool × Stack σ :=
    let (found, stack) := acc
    if found || i == v || !stack.isActive i ||
        (stack.position i).bytes < (stack.position v).bytes then (found, stack)
    else
      let (other, stack) := stack.standing i
      match mine.compare other with
      | .takeRight => (true, stack)
      | .preferRight => (stack.canMerge i v, stack)
      | _ => (false, stack)

end WebBaseline.Parsing
