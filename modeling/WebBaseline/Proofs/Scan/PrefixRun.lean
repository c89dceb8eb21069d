import WebBaseline.Proofs.Scan.Percentage
import WebBaseline.Scan.Run

/-!
# Cancelled runs

A run looks whether it is cancelled before each file, and what is reported
after a file may be what cancels it.  However that happens, the run does what a
run over the files before would do.

* `StopsAt` — where a run stops: at the first file before which it is
  cancelled, or after the last file;
* `covers_runFrom` — the loop, from any file on;
* `StopsAt.least` — where a run stops that is cancelled when a percentage is
  reached;
* `run_is_prefix` — the runs over all lists of files.
-/

namespace WebBaseline

/-- The percentages after the first files, of `total`. -/
def percentages (total count : Nat) : List Nat :=
  (List.range count).map fun i => percentage (i + 1) total

/-- One more file is reported after the others. -/
theorem percentages_succ (total count : Nat) :
    percentages total (count + 1) = percentages total count ++ [percentage (count + 1) total] := by
  rw [percentages, List.range_succ, List.map_append]
  rfl

/-- The state of a canceller after the first files, of `total`. -/
def Canceller.after {σ : Type} (c : Canceller σ) (total count : Nat) : σ :=
  (percentages total count).foldl c.report c.start

/-- Each report changes the state once. -/
theorem Canceller.after_succ {σ : Type} (c : Canceller σ) (total count : Nat) :
    c.after total (count + 1) = c.report (c.after total count) (percentage (count + 1) total) := by
  rw [after, percentages_succ, List.foldl_append]
  rfl

/-- A run over `total` files that stops before the first file with a property,
or after the last one, covers `count` files. -/
structure StopsAt (Stop : Nat → Prop) (total count : Nat) : Prop where
  le : count ≤ total
  goes : ∀ i < count, ¬ Stop i
  stops : count < total → Stop count

/-- A run stops at one place only. -/
theorem StopsAt.unique {Stop : Nat → Prop} {total j k : Nat} (hj : StopsAt Stop total j)
    (hk : StopsAt Stop total k) : j = k := by
  rcases Nat.lt_trichotomy j k with hlt | heq | hgt
  · exact absurd (hj.stops (Nat.lt_of_lt_of_le hlt hk.le)) (hk.goes j hlt)
  · exact heq
  · exact absurd (hk.stops (Nat.lt_of_lt_of_le hgt hj.le)) (hj.goes k hgt)

/-- Whether a run over a list of files covers the first of them. -/
structure Covers (s : Scanner) (files : List SourceFile) (count : Nat) (run : ScanRun) : Prop where
  filesScanned : run.filesScanned = count
  progress : run.progress = percentages files.length count
  result : run.result = .ofIssues ((files.take count).flatMap s.scanFile)
  cancelled : run.cancelled = true ↔ count < files.length

namespace Scanner

variable (s : Scanner) {σ : Type} (c : Canceller σ)

/-- Whether a run over `total` files is cancelled before the file with a number. -/
def CancelledAt (total i : Nat) : Prop := c.isCancelled (c.after total i) = true

/-- The issues that a run has found are those of the files before. -/
theorem flatten_found {files before rest : List SourceFile} (hfiles : files = before ++ rest) :
    (before.map s.scanFile).reverse.reverse.flatten =
      (files.take before.length).flatMap s.scanFile := by
  rw [List.reverse_reverse, hfiles, List.take_left, List.flatMap]

/-- **The loop.**  After the files of `before`, before none of which it was
cancelled, the rest of a run covers the files up to the one at which it stops. -/
theorem covers_runFrom {files : List SourceFile} (before rest : List SourceFile)
    (hfiles : files = before ++ rest)
    (hbefore : ∀ i < before.length, ¬ CancelledAt c files.length i) :
    ∃ count, StopsAt (CancelledAt c files.length) files.length count ∧
      Covers s files count
        (s.runFrom c files.length rest (c.after files.length before.length) before.length
          (before.map s.scanFile).reverse (percentages files.length before.length).reverse) := by
  induction rest generalizing before with
  | nil =>
      have hlength : files.length = before.length := by
        rw [hfiles, List.append_nil]
      refine ⟨before.length, ⟨by omega, hbefore, fun hlt => by omega⟩, ?_⟩
      rw [runFrom]
      exact {
        filesScanned := rfl
        progress := List.reverse_reverse _
        result := congrArg ScanResult.ofIssues (flatten_found s hfiles)
        cancelled := ⟨fun h => Bool.noConfusion h, fun hlt => by omega⟩ }
  | cons file rest ih =>
      have hlength : files.length = before.length + (rest.length + 1) := by
        rw [hfiles, List.length_append, List.length_cons]
      rw [runFrom]
      split
      · rename_i hcancelled
        refine ⟨before.length, ⟨by omega, hbefore, fun _ => hcancelled⟩, ?_⟩
        exact {
          filesScanned := rfl
          progress := List.reverse_reverse _
          result := congrArg ScanResult.ofIssues (flatten_found s hfiles)
          cancelled := ⟨fun _ => by omega, fun _ => rfl⟩ }
      · rename_i hgoes
        -- The file joins those before, and the accumulators are those of the longer prefix.
        have hnext := ih (before ++ [file]) (by simpa using hfiles) (by
          intro i hi
          rw [List.length_append, List.length_singleton] at hi
          rcases Nat.lt_succ_iff_lt_or_eq.mp hi with hlt | rfl
          · exact hbefore i hlt
          · exact hgoes)
        rw [List.length_append, List.length_singleton, Canceller.after_succ,
          percentages_succ] at hnext
        simpa using hnext

/-- A run over files stops at one place and covers the files before. -/
theorem covers_run {files : List SourceFile} (hfiles : files ≠ []) :
    ∃ count, StopsAt (CancelledAt c files.length) files.length count ∧
      Covers s files count (s.run c files) := by
  cases files with
  | nil => exact absurd rfl hfiles
  | cons file rest => exact covers_runFrom s c [] (file :: rest) rfl (by simp)

/-- The result of a run over any files, also over none, is that of the files before it stops. -/
theorem exists_result_run (files : List SourceFile) :
    ∃ count, StopsAt (CancelledAt c files.length) files.length count ∧
      (s.run c files).result = .ofIssues ((files.take count).flatMap s.scanFile) := by
  cases files with
  | nil => exact ⟨0, ⟨Nat.le_refl 0, fun i hi => absurd hi (Nat.not_lt_zero i),
      fun h => absurd h (Nat.lt_irrefl 0)⟩, rfl⟩
  | cons file rest =>
      obtain ⟨count, hstops, hcovers⟩ := covers_run s c (List.cons_ne_nil file rest)
      exact ⟨count, hstops, hcovers.result⟩

end Scanner

/-! ### Cancelling when a percentage is reached -/

namespace Canceller

/-- Cancel as soon as a percentage is reported that is high enough. -/
def byReport (threshold : Nat) : Canceller Bool := { reaching threshold with start := false }

/-- A run stays cancelled once a percentage was high enough. -/
theorem foldl_reaching (threshold : Nat) (percents : List Nat) (cancelled : Bool) :
    percents.foldl (reaching threshold).report cancelled =
      (cancelled || percents.any fun percent => decide (threshold ≤ percent)) := by
  induction percents generalizing cancelled with
  | nil => exact (Bool.or_false cancelled).symm
  | cons percent rest ih => rw [List.foldl_cons, ih, List.any_cons, reaching, Bool.or_assoc]

/-- Some percentage that was reported was high enough. -/
theorem any_percentages (threshold total count : Nat) :
    ((percentages total count).any fun percent => decide (threshold ≤ percent)) = true ↔
      ∃ i, 1 ≤ i ∧ i ≤ count ∧ threshold ≤ percentage i total := by
  simp only [percentages, List.any_map, List.any_eq_true, List.mem_range, Function.comp_apply,
    decide_eq_true_iff]
  constructor
  · rintro ⟨i, hi, hreached⟩
    exact ⟨i + 1, by omega, by omega, hreached⟩
  · rintro ⟨i, hpos, hi, hreached⟩
    refine ⟨i - 1, by omega, ?_⟩
    rwa [Nat.sub_add_cancel hpos]

end Canceller

namespace Scanner

/-- When reports cancel a run. -/
theorem cancelledAt_byReport (threshold total i : Nat) :
    CancelledAt (.byReport threshold) total i ↔
      ∃ j, 1 ≤ j ∧ j ≤ i ∧ threshold ≤ percentage j total := by
  have hafter : (Canceller.byReport threshold).after total i =
      (false || (percentages total i).any fun percent => decide (threshold ≤ percent)) :=
    Canceller.foldl_reaching threshold (percentages total i) false
  rw [CancelledAt, hafter, Bool.false_or]
  exact Canceller.any_percentages threshold total i

/-- When a percentage cancels a run that counts the one before the start. -/
theorem cancelledAt_reaching {threshold total i : Nat} (htotal : 0 < total) :
    CancelledAt (.reaching threshold) total i ↔
      ∃ j, 0 ≤ j ∧ j ≤ i ∧ threshold ≤ percentage j total := by
  have hzero : percentage 0 total = 0 := by
    rw [percentage_eq_div (Nat.zero_le total) htotal]
    exact Nat.div_eq_of_lt (by omega)
  have hafter : (Canceller.reaching threshold).after total i =
      (decide (threshold = 0) ||
        (percentages total i).any fun percent => decide (threshold ≤ percent)) :=
    Canceller.foldl_reaching threshold (percentages total i) (decide (threshold = 0))
  rw [CancelledAt, hafter]
  change (_ || _) = true ↔ _
  rw [Bool.or_eq_true, decide_eq_true_iff, Canceller.any_percentages]
  constructor
  · rintro (rfl | ⟨j, -, hj, hreached⟩)
    · exact ⟨0, Nat.le_refl 0, Nat.zero_le i, Nat.zero_le _⟩
    · exact ⟨j, Nat.zero_le j, hj, hreached⟩
  · rintro ⟨j, -, hj, hreached⟩
    rcases Nat.eq_zero_or_pos j with rfl | hpos
    · exact Or.inl (by omega)
    · exact Or.inr ⟨j, hpos, hj, hreached⟩

end Scanner

/-- A run that stops once one of the numbers from `first` on has a property
stops at the first that has it, or after the last file. -/
theorem StopsAt.least {Stop Reached : Nat → Prop} {first total count : Nat}
    (h : StopsAt Stop total count)
    (hstop : ∀ i, Stop i ↔ ∃ j, first ≤ j ∧ j ≤ i ∧ Reached j) :
    (∀ i, first ≤ i → i < count → ¬ Reached i) ∧ (count = total ∨ Reached count) := by
  have hbefore : ∀ i, first ≤ i → i < count → ¬ Reached i :=
    fun i hfirst hi hreached =>
      h.goes i hi ((hstop i).mpr ⟨i, hfirst, Nat.le_refl i, hreached⟩)
  refine ⟨hbefore, ?_⟩
  rcases Nat.lt_or_eq_of_le h.le with hlt | heq
  · obtain ⟨j, hfirst, hj, hreached⟩ := (hstop count).mp (h.stops hlt)
    rcases Nat.lt_or_eq_of_le hj with hless | rfl
    · exact absurd hreached (hbefore j hfirst hless)
    · exact Or.inr hreached
  · exact Or.inl heq

namespace Scanner

/-- **A cancelled run is a run over a prefix.**  For all scanners, whatever
cancels, and all files:

* a run over some files covers the first of them, up to the one before which
  it is first found cancelled, with their issues and one report for each;
* the reports are the shares of files, rounded half up;
* if reports from a percentage on cancel, that is the first file whose report
  is high enough, and likewise if the percentage before the start counts too;
* of no files the whole is reported as done. -/
theorem run_is_prefix {σ : Type} (s : Scanner) (c : Canceller σ) (threshold : Nat)
    (files : List SourceFile) :
    let n := files.length
    let byReport := (s.run (.byReport threshold) files).filesScanned
    let reaching := (s.run (.reaching threshold) files).filesScanned
    (files ≠ [] →
      (∃! k, StopsAt (CancelledAt c n) n k ∧ Covers s files k (s.run c files)) ∧
      (∀ i, i ≤ n → (percentage i n : ℤ) = round (100 * i / n : ℚ)) ∧
      (1 ≤ byReport ∧ byReport ≤ n ∧ (∀ i, 1 ≤ i → i < byReport → percentage i n < threshold) ∧
        (byReport = n ∨ threshold ≤ percentage byReport n)) ∧
      (reaching ≤ n ∧ (∀ i < reaching, percentage i n < threshold) ∧
        (reaching = n ∨ threshold ≤ percentage reaching n))) ∧
    (files = [] → s.run c files = ⟨.ofIssues [], 0, false, [100]⟩) := by
  intro n byReport reaching
  refine ⟨fun hfiles => ?_, ?_⟩
  · have hpos : 0 < n := List.length_pos_iff.mpr hfiles
    refine ⟨?_, fun i hi => percentage_eq_round hi hpos, ?_, ?_⟩
    · obtain ⟨k, hstops, hcovers⟩ := covers_run s c hfiles
      exact ⟨k, ⟨hstops, hcovers⟩, fun j hj => hj.1.unique hstops⟩
    · obtain ⟨k, hstops, hcovers⟩ := covers_run s (.byReport threshold) hfiles
      obtain rfl : byReport = k := hcovers.filesScanned
      obtain ⟨hbefore, hend⟩ := hstops.least (cancelledAt_byReport threshold n)
      have hstart : 1 ≤ byReport := by
        rcases Nat.eq_zero_or_pos byReport with hzero | hone
        · obtain ⟨j, hj, hle, -⟩ :=
            (cancelledAt_byReport threshold n byReport).mp (hstops.stops (by omega))
          omega
        · exact hone
      exact ⟨hstart, hstops.le, fun i hi hlt => Nat.lt_of_not_le (hbefore i hi hlt), hend⟩
    · obtain ⟨k, hstops, hcovers⟩ := covers_run s (.reaching threshold) hfiles
      obtain rfl : reaching = k := hcovers.filesScanned
      obtain ⟨hbefore, hend⟩ := hstops.least fun i => cancelledAt_reaching hpos
      exact ⟨hstops.le, fun i hlt => Nat.lt_of_not_le (hbefore i (Nat.zero_le i) hlt), hend⟩
  · intro hnil
    subst hnil
    rfl

end Scanner

end WebBaseline
