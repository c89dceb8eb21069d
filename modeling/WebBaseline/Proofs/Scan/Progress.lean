import WebBaseline.Proofs.Scan.FileOrder
import WebBaseline.Proofs.Scan.Score
import WebBaseline.Scan.Parsers

/-!
# Progress

After each file a run reports the share of its files that are done.  The shares
rise to the whole.  They are rounded, so that long runs report the whole before
the last file, and a run that is cancelled has reported the first of them.

* `take_percentages`, `pairwise_percentages` — the reports of fewer files, and their order;
* `progress_of_not_cancelled` — what a run reports that goes on to the end;
* `progress_rises_to_hundred` — the reports of every run;
* `hundred_before_last_of_two_hundred` — the shortest run that reports the whole early.
-/

namespace WebBaseline

/-! ### Percentages after the first files -/

section Percentages

variable {total count i : Nat}

@[simp] theorem length_percentages (total count : Nat) :
    (percentages total count).length = count := by
  rw [percentages, List.length_map, List.length_range]

/-- The report after a file. -/
theorem getElem?_percentages (hi : 1 ≤ i) (hcount : i ≤ count) :
    (percentages total count)[i - 1]? = some (percentage i total) := by
  rw [percentages, List.getElem?_map, List.getElem?_range (by omega), Option.map_some,
    Nat.sub_add_cancel hi]

/-- The first reports of a longer run are those of a shorter one. -/
theorem take_percentages (hi : i ≤ count) :
    (percentages total count).take i = percentages total i := by
  rw [percentages, ← List.map_take, List.take_range, Nat.min_eq_left hi, percentages]

/-- More files have larger shares. -/
theorem percentage_mono {part part' : Nat} (hpart : part ≤ part') (hpart' : part' ≤ total)
    (htotal : 0 < total) : percentage part total ≤ percentage part' total :=
  percentage_le_percentage (Nat.le_trans hpart hpart') hpart' htotal htotal
    (Nat.mul_le_mul_right total hpart)

/-- The reports of a run do not fall. -/
theorem pairwise_percentages (hcount : count ≤ total) :
    (percentages total count).Pairwise (· ≤ ·) := by
  rw [percentages, List.pairwise_map]
  refine List.pairwise_lt_range.imp_of_mem ?_
  intro i j _ hj hij
  have hlast : j < count := List.mem_range.mp hj
  exact percentage_mono (by omega) (by omega) (by omega)

theorem percentage_self (htotal : 0 < total) : percentage total total = 100 := by
  rw [percentage_eq_hundred_iff (Nat.le_refl total) htotal]
  omega

/-- The last report is of the whole. -/
theorem getLast?_percentages (htotal : 0 < total) :
    (percentages total total).getLast? = some 100 := by
  rw [List.getLast?_eq_getElem?, length_percentages,
    getElem?_percentages htotal (Nat.le_refl total), percentage_self htotal]

end Percentages

/-! ### Runs -/

namespace Scanner

variable {σ : Type} (s : Scanner) (c : Canceller σ) {files : List SourceFile}

/-- A run that is not cancelled reports once after each of the files. -/
theorem progress_of_not_cancelled (hfiles : files ≠ [])
    (hgoes : (s.run c files).cancelled = false) :
    (s.run c files).progress = percentages files.length files.length := by
  obtain ⟨count, hstops, hcovers⟩ := covers_run s c hfiles
  have hall : ¬ count < files.length := by
    rw [← hcovers.cancelled, hgoes]
    exact Bool.false_ne_true
  rw [hcovers.progress, Nat.le_antisymm hstops.le (Nat.not_lt.mp hall)]

/-- A run that nothing cancels goes on to the end. -/
theorem cancelled_run_never (files : List SourceFile) :
    (s.run .never files).cancelled = false := by
  cases files with
  | nil => rfl
  | cons file rest =>
      obtain ⟨count, hstops, hcovers⟩ := covers_run s .never (List.cons_ne_nil file rest)
      rw [← Bool.not_eq_true, hcovers.cancelled, hstops.unique (stopsAt_never _)]
      exact Nat.lt_irrefl _

/-- **Progress.**  For all scanners, whatever may cancel a run, and all files whose number leaves
room in words of 64 bits:

* a run that goes on to the end reports as many numbers as there are files; none exceeds the whole,
  they do not fall, and the last is the whole;
* each is the share of the files, rounded half up, so that cutting off at the whole changes nothing,
  and words of 64 bits give the same number;
* it is the whole before the last file if at most every two hundredth file is left, and so never
  in runs over fewer files than that;
* other runs that are not cancelled report the same, and those that are have reported the first of
  these numbers, one for each file before. -/
theorem progress_rises_to_hundred (hfiles : 1 ≤ files.length)
    (hfits : 201 * files.length < UInt64.size) :
    let n := files.length
    let reported := (s.run .never files).progress
    let run := s.run c files
    (s.run .never files).cancelled = false ∧
    (reported.length = n ∧ (∀ p ∈ reported, p ≤ 100) ∧ reported.Pairwise (· ≤ ·) ∧
      reported.getLast? = some 100) ∧
    (∀ i, 1 ≤ i → i ≤ n → ∃ p, reported[i - 1]? = some p ∧ (p : ℤ) = round (100 * i / n : ℚ) ∧
      (200 * i + n) / (2 * n) = p ∧ (percentageInWords (.ofNat i) (.ofNat n)).toNat = p) ∧
    (∀ i, 1 ≤ i → i < n → (reported[i - 1]? = some 100 ↔ 200 * (n - i) ≤ n)) ∧
    (n < 200 → ∀ i, 1 ≤ i → i < n → reported[i - 1]? ≠ some 100) ∧
    (run.cancelled = false → run.progress = reported) ∧
    run.progress = reported.take run.filesScanned ∧ run.progress.length = run.filesScanned := by
  intro n reported run
  have hne : files ≠ [] := List.length_pos_iff.mp hfiles
  have hreported : reported = percentages n n :=
    s.progress_of_not_cancelled .never hne (s.cancelled_run_never files)
  have hearly : ∀ i, 1 ≤ i → i < n → (reported[i - 1]? = some 100 ↔ 200 * (n - i) ≤ n) := by
    intro i hi hlt
    rw [hreported, getElem?_percentages hi (Nat.le_of_lt hlt), Option.some_inj,
      percentage_eq_hundred_iff (Nat.le_of_lt hlt) hfiles]
  refine ⟨s.cancelled_run_never files, ?_, ?_, hearly, ?_, ?_, ?_⟩
  · rw [hreported]
    refine ⟨length_percentages n n, fun p hp => ?_, pairwise_percentages (Nat.le_refl n),
      getLast?_percentages hfiles⟩
    obtain ⟨i, -, rfl⟩ := List.mem_map.mp hp
    exact percentage_le_hundred (i + 1) n
  · intro i hi hn
    refine ⟨percentage i n, ?_, percentage_eq_round hn hfiles,
      (percentage_eq_div hn hfiles).symm, toNat_percentageInWords_ofNat hn (by omega) (by omega)⟩
    rw [hreported, getElem?_percentages hi hn]
  · intro hshort i hi hlt hfull
    have hleft := (hearly i hi hlt).mp hfull
    omega
  · intro hgoes
    rw [hreported]
    exact s.progress_of_not_cancelled c hne hgoes
  · obtain ⟨count, hstops, hcovers⟩ := covers_run s c hne
    rw [hcovers.progress, hcovers.filesScanned, hreported, take_percentages hstops.le]
    exact ⟨rfl, length_percentages n count⟩

/-- Of two hundred files the whole is reported after the last but one. -/
theorem hundred_before_last_of_two_hundred :
    let files := List.replicate 200 (⟨"notes.md", "gap"⟩ : SourceFile)
    (1 ≤ files.length ∧ 201 * files.length < UInt64.size) ∧
      ((ofCatalog .standard [] {}).run .never files).progress[198]? = some 100 := by
  intro files
  have hlength : files.length = 200 := List.length_replicate
  have hfiles : 1 ≤ files.length := by omega
  have hfits : 201 * files.length < UInt64.size := by
    rw [hlength]
    decide
  have hprogress := progress_rises_to_hundred (ofCatalog .standard [] {}) .never hfiles hfits
  exact ⟨⟨hfiles, hfits⟩, (hprogress.2.2.2.1 199 (by decide) (by omega)).mpr (by omega)⟩

end Scanner

end WebBaseline
