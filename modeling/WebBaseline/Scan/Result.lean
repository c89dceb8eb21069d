import WebBaseline.Scan.Issue

/-!
# Results of scans

A result is made from a list of issues: it holds them sorted by file, how many
there are of each status, and the score, the percentage of acceptable uses.

The numbers of a result are those of a list, and exact.  Counts may also be given
as such, in words of 64 bits; sums and products of words start again at zero, and
`WordCounts` has the score as it is computed from them.
-/

namespace WebBaseline

/-- How many issues there are of each status. -/
structure Counts where
  widely : Nat := 0
  newly : Nat := 0
  limited : Nat := 0
  unknown : Nat := 0
deriving DecidableEq, Repr, Inhabited

namespace Counts

/-- Count one more issue. -/
def record (c : Counts) : Status → Counts
  | .widely => { c with widely := c.widely + 1 }
  | .newly => { c with newly := c.newly + 1 }
  | .limited => { c with limited := c.limited + 1 }
  | .unknown => { c with unknown := c.unknown + 1 }

/-- The number of issues of a status. -/
def get (c : Counts) : Status → Nat
  | .widely => c.widely
  | .newly => c.newly
  | .limited => c.limited
  | .unknown => c.unknown

/-- The number of issues. -/
def total (c : Counts) : Nat := c.widely + c.newly + c.limited + c.unknown

/-- The number of issues that count towards the score. -/
def acceptable (c : Counts) : Nat := c.widely + c.newly

/-- The counts of a list of issues. -/
def ofIssues (issues : List Issue) : Counts :=
  issues.foldl (fun c i => c.record i.status) {}

/-- The object for counts. -/
def members (c : Counts) : List (String × Json) :=
  Status.all.map fun s => (s.label, .integer (c.get s))

end Counts

/-- The percentage of a part, rounded half up, and at most 100; of nothing it is 100. -/
def percentage (part total : Nat) : Nat :=
  if total = 0 then 100 else min 100 ((200 * part + total) / (2 * total))

/-- The score of counts. -/
def Counts.score (c : Counts) : Nat := percentage c.acceptable c.total

/-! ### Words -/

/-- The percentage of a part, computed with words of 64 bits and kept in a byte. -/
def percentageInWords (part total : UInt64) : UInt8 :=
  if total = 0 then 100
  else
    let quotient := (200 * part + total) / (2 * total)
    if quotient ≤ 100 then quotient.toUInt8 else 100

/-- How many issues there are of each status, in words of 64 bits. -/
structure WordCounts where
  widely : UInt64 := 0
  newly : UInt64 := 0
  limited : UInt64 := 0
  unknown : UInt64 := 0
deriving DecidableEq, Repr, Inhabited

namespace WordCounts

/-- Count one more issue. -/
def record (w : WordCounts) : Status → WordCounts
  | .widely => { w with widely := w.widely + 1 }
  | .newly => { w with newly := w.newly + 1 }
  | .limited => { w with limited := w.limited + 1 }
  | .unknown => { w with unknown := w.unknown + 1 }

/-- The number of issues. -/
def total (w : WordCounts) : UInt64 := w.widely + w.newly + w.limited + w.unknown

/-- The number of issues that count towards the score. -/
def acceptable (w : WordCounts) : UInt64 := w.widely + w.newly

/-- The counts of a list of issues. -/
def ofIssues (issues : List Issue) : WordCounts :=
  issues.foldl (fun w i => w.record i.status) {}

/-- The score of counts; none if there are issues and twice their number is zero, which nothing
can be divided by. -/
def score (w : WordCounts) : Option UInt8 :=
  if w.total ≠ 0 ∧ 2 * w.total = 0 then none
  else some (percentageInWords w.acceptable w.total)

/-- The numbers that the words stand for. -/
def toCounts (w : WordCounts) : Counts where
  widely := w.widely.toNat
  newly := w.newly.toNat
  limited := w.limited.toNat
  unknown := w.unknown.toNat

end WordCounts

/-! ### Results -/

/-- How good a score is. -/
inductive Band where
  | good
  | fair
  | poor
deriving DecidableEq, Repr, Inhabited

namespace Band

/-- The band of a score. -/
def ofScore (score : Nat) : Band :=
  if 90 ≤ score then good else if 70 ≤ score then fair else poor

/-- The name of a band. -/
def name : Band → String
  | good => "good"
  | fair => "fair"
  | poor => "poor"

end Band

/-- The result of a scan. -/
structure ScanResult where
  issues : List Issue
  counts : Counts
  score : Nat
deriving DecidableEq, Repr, Inhabited

namespace ScanResult

/-- Issues in the order of their files; those of one file keep their order. -/
def sortByFile (issues : List Issue) : List Issue :=
  issues.mergeSort fun a b => decide (a.file ≤ b.file)

/-- The result of a list of issues. -/
def ofIssues (issues : List Issue) : ScanResult :=
  let sorted := sortByFile issues
  let counts := Counts.ofIssues sorted
  { issues := sorted, counts, score := counts.score }

/-- How good the score is. -/
def band (r : ScanResult) : Band := .ofScore r.score

/-- The result with another priority of one issue; none if there is no such issue. -/
def withPriority (r : ScanResult) (index : Nat) (priority : Priority) : Option ScanResult :=
  if index < r.issues.length then
    some { r with issues := r.issues.modify index fun i => { i with priority } }
  else none

/-- The members of the object for a result, in the order in which they are written. -/
def members (r : ScanResult) : List (String × Json) :=
  [("score", .integer r.score), ("stats", .object r.counts.members),
   ("issues", .array (r.issues.map Issue.toJson))]

end ScanResult

end WebBaseline
