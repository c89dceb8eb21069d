import WebBaseline.Proofs.Scan.Percentage
import WebBaseline.Proofs.Text.StableSort

/-!
# What every result satisfies

A result is made from a list of issues and may then get other priorities, one
issue at a time.  Its counts and its score are carried along and not computed
again; they stay right because they do not depend on priorities.

* `stablySorted_sortByFile`, `derived_ofIssues` — the result of a list of issues;
* `withPriority_eq_some` — one edit changes one priority and nothing else;
* `Derived.withPriority`, `Derived.edited` — edits keep the invariant;
* `edited_invariant` — the invariant, for every list and every sequence of edits.
-/

namespace WebBaseline

/-- An issue, up to its priority. -/
def Issue.unprioritized (i : Issue) : Issue := { i with priority := .low }

namespace Counts

/-- The statuses of issues that are counted one after the other. -/
theorem get_foldl_record (issues : List Issue) (c : Counts) (s : Status) :
    (issues.foldl (fun c i => c.record i.status) c).get s =
      c.get s + issues.countP (·.status == s) := by
  induction issues generalizing c with
  | nil => rfl
  | cons i rest ih =>
      have hrecord : (c.record i.status).get s = c.get s + if i.status == s then 1 else 0 := by
        cases i.status <;> cases s <;> rfl
      rw [List.foldl_cons, ih, hrecord, List.countP_cons]
      omega

/-- Counts are right for each status. -/
theorem get_ofIssues (issues : List Issue) (s : Status) :
    (ofIssues issues).get s = issues.countP (·.status == s) := by
  rw [ofIssues, get_foldl_record]
  cases s <;> exact Nat.zero_add _

theorem acceptable_le_total (c : Counts) : c.acceptable ≤ c.total := by
  unfold acceptable total
  omega

/-- Each issue has one status. -/
theorem sum_countP_status (issues : List Issue) :
    issues.countP (·.status == .widely) + issues.countP (·.status == .newly) +
      issues.countP (·.status == .limited) + issues.countP (·.status == .unknown) =
    issues.length := by
  induction issues with
  | nil => rfl
  | cons i rest ih =>
      simp only [List.countP_cons, List.length_cons]
      cases hstatus : i.status <;> simp <;> omega

end Counts

namespace ScanResult

/-! ### Sorting by file -/

/-- Whether an issue may stand before another. -/
def fileLE (a b : Issue) : Bool := decide (a.file ≤ b.file)

theorem fileLE_iff (a b : Issue) : fileLE a b = true ↔ a.file ≤ b.file := decide_eq_true_iff

/-- Issues are sorted stably. -/
theorem stablySorted_sortByFile (issues : List Issue) :
    StablySorted Issue.file issues (sortByFile issues) :=
  stablySorted_mergeSort fileLE_iff issues

/-! ### The invariant -/

/-- What a result has to do with the issues it was made from: their order, and
the counts and the score of the issues it holds. -/
structure Derived (input : List Issue) (r : ScanResult) : Prop where
  /-- No issue is lost or made up. -/
  permuted : (r.issues.map Issue.unprioritized).Perm (input.map Issue.unprioritized)
  /-- The issues are in the byte order of their files. -/
  sorted : r.issues.Pairwise fun a b => Text.bytes a.file ≤ Text.bytes b.file
  /-- The issues of one file are in the order in which they were given. -/
  stable : ∀ file, (r.issues.filter (·.file == file)).map Issue.unprioritized =
    (input.filter (·.file == file)).map Issue.unprioritized
  /-- Each status is counted. -/
  counted : ∀ s, r.counts.get s = r.issues.countP (·.status == s)
  /-- The counts add up. -/
  total : r.counts.total = r.issues.length
  /-- Without issues the score is full. -/
  score_nil : r.issues = [] → r.score = 100
  /-- The score is the share of acceptable uses, rounded half up. -/
  score_round : r.issues ≠ [] → (r.score : ℤ) =
    round (100 * ((r.counts.get .widely + r.counts.get .newly : ℕ) : ℚ) / r.counts.total)

/-- **The result of a list.** -/
theorem derived_ofIssues (issues : List Issue) : Derived issues (ofIssues issues) := by
  have hcounted : ∀ s, (ofIssues issues).counts.get s =
      (ofIssues issues).issues.countP (·.status == s) :=
    Counts.get_ofIssues (sortByFile issues)
  have htotal : (ofIssues issues).counts.total = (ofIssues issues).issues.length := by
    rw [← Counts.sum_countP_status, ← hcounted, ← hcounted, ← hcounted, ← hcounted]
    rfl
  exact {
    permuted := (stablySorted_sortByFile issues).permuted.map Issue.unprioritized
    sorted := (stablySorted_sortByFile issues).ordered
    stable := fun file => congrArg (List.map Issue.unprioritized)
      ((stablySorted_sortByFile issues).stable file)
    counted := hcounted
    total := htotal
    score_nil := by
      intro hnil
      have hzero : (ofIssues issues).counts.total = 0 := by rw [htotal, hnil, List.length_nil]
      exact (congrArg (percentage _) hzero).trans (percentage_zero _)
    score_round := by
      intro hne
      have hpos : 0 < (ofIssues issues).counts.total := by
        rw [htotal]
        exact List.length_pos_iff.mpr hne
      exact percentage_eq_round (ofIssues issues).counts.acceptable_le_total hpos }

/-! ### Edits -/

/-- Another priority leaves an issue as it is up to its priority. -/
theorem unprioritized_modify (issues : List Issue) (index : Nat) (priority : Priority) :
    (issues.modify index fun i => { i with priority }).map Issue.unprioritized =
      issues.map Issue.unprioritized := by
  apply List.ext_getElem?
  intro j
  rw [List.getElem?_map, List.getElem?_map, List.getElem?_modify]
  split <;> cases issues[j]? <;> rfl

/-- **One edit.**  It changes one priority and nothing else. -/
theorem withPriority_eq_some {r : ScanResult} {index : Nat} {priority : Priority}
    (hindex : index < r.issues.length) :
    ∃ next, r.withPriority index priority = some next ∧
      next.counts = r.counts ∧ next.score = r.score ∧
      ∀ j, next.issues[j]? =
        if j = index then r.issues[j]?.map fun i => { i with priority } else r.issues[j]? := by
  refine ⟨_, if_pos hindex, rfl, rfl, fun j => ?_⟩
  rw [List.getElem?_modify]
  by_cases hj : index = j
  · subst hj
    simp
  · simp [hj, Ne.symm hj]

/-- The invariant does not depend on priorities. -/
theorem Derived.congr {input : List Issue} {r next : ScanResult} (h : Derived input r)
    (hissues : next.issues.map Issue.unprioritized = r.issues.map Issue.unprioritized)
    (hcounts : next.counts = r.counts) (hscore : next.score = r.score) : Derived input next := by
  have hlength : next.issues.length = r.issues.length := by
    simpa using congrArg List.length hissues
  have hnil : next.issues = [] ↔ r.issues = [] := by
    rw [← List.length_eq_zero_iff, hlength, List.length_eq_zero_iff]
  have hfilter : ∀ (issues : List Issue) (file : String),
      (issues.filter (·.file == file)).map Issue.unprioritized =
        (issues.map Issue.unprioritized).filter (·.file == file) := by
    intro issues file
    rw [List.filter_map]
    rfl
  have hcountP : ∀ (issues : List Issue) (s : Status), issues.countP (·.status == s) =
      (issues.map Issue.unprioritized).countP (·.status == s) := by
    intro issues s
    rw [List.countP_map]
    rfl
  have hpairwise : ∀ issues : List Issue,
      (issues.Pairwise fun a b => Text.bytes a.file ≤ Text.bytes b.file) ↔
        (issues.map Issue.unprioritized).Pairwise
          fun a b => Text.bytes a.file ≤ Text.bytes b.file := by
    intro issues
    rw [List.pairwise_map]
    rfl
  exact {
    permuted := hissues ▸ h.permuted
    sorted := by
      rw [hpairwise, hissues, ← hpairwise]
      exact h.sorted
    stable := by
      intro file
      rw [hfilter, hissues, ← hfilter]
      exact h.stable file
    counted := by
      intro s
      rw [hcounts, hcountP, hissues, ← hcountP]
      exact h.counted s
    total := by rw [hcounts, hlength, h.total]
    score_nil := fun hempty => hscore.trans (h.score_nil (hnil.mp hempty))
    score_round := by
      intro hne
      rw [hscore, hcounts]
      exact h.score_round (mt hnil.mpr hne) }

/-- The invariant holds after an edit. -/
theorem Derived.withPriority {input : List Issue} {r next : ScanResult} (h : Derived input r)
    {index : Nat} {priority : Priority} (hedit : r.withPriority index priority = some next) :
    Derived input next := by
  unfold ScanResult.withPriority at hedit
  split at hedit
  · obtain rfl := Option.some.inj hedit
    exact h.congr (unprioritized_modify r.issues index priority) rfl rfl
  · cases hedit

/-- A result after a sequence of edits; those of issues that are not there are passed over. -/
def edited (r : ScanResult) (edits : List (Nat × Priority)) : ScanResult :=
  edits.foldl (fun r e => (r.withPriority e.1 e.2).getD r) r

/-- The invariant holds after any sequence of edits. -/
theorem Derived.edited {input : List Issue} {r : ScanResult} (h : Derived input r)
    (edits : List (Nat × Priority)) : Derived input (r.edited edits) := by
  induction edits generalizing r with
  | nil => exact h
  | cons e rest ih =>
      have hstep : Derived input ((r.withPriority e.1 e.2).getD r) := by
        cases hedit : r.withPriority e.1 e.2 with
        | none => exact h
        | some next => exact h.withPriority hedit
      exact ih hstep

/-- **The invariant of results.**  For every list of issues and every sequence
of edits, of issues that are there or not: the result is still derived from the
list.  A further edit changes the priority of its issue and nothing else, and
gives no result, so that the one before stays, if there is no such issue. -/
theorem edited_invariant (input : List Issue) (edits : List (Nat × Priority)) :
    let r := (ofIssues input).edited edits
    Derived input r ∧
    (∀ index priority, index < r.issues.length →
      ∃ next, r.withPriority index priority = some next ∧
        (ofIssues input).edited (edits ++ [(index, priority)]) = next ∧
        next.counts = r.counts ∧ next.score = r.score ∧
        ∀ j, next.issues[j]? =
          if j = index then r.issues[j]?.map fun i => { i with priority } else r.issues[j]?) ∧
    ∀ index priority, r.issues.length ≤ index →
      r.withPriority index priority = none ∧
      (ofIssues input).edited (edits ++ [(index, priority)]) = r := by
  intro r
  have hmore : ∀ index priority, (ofIssues input).edited (edits ++ [(index, priority)]) =
      (r.withPriority index priority).getD r := by
    intro index priority
    rw [ScanResult.edited, List.foldl_append]
    rfl
  refine ⟨(derived_ofIssues input).edited edits, ?_, ?_⟩
  · intro index priority hindex
    obtain ⟨next, hedit, hcounts, hscore, hissues⟩ := withPriority_eq_some hindex
    refine ⟨next, hedit, ?_, hcounts, hscore, hissues⟩
    rw [hmore, hedit, Option.getD_some]
  · intro index priority hindex
    have hnone : r.withPriority index priority = none := if_neg (Nat.not_lt.mpr hindex)
    refine ⟨hnone, ?_⟩
    rw [hmore, hnone, Option.getD_none]

end ScanResult

end WebBaseline
