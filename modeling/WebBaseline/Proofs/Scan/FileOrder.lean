import Mathlib.Data.List.Nodup
import WebBaseline.Proofs.Scan.PrefixRun
import WebBaseline.Proofs.Scan.ResultInvariant
import WebBaseline.Proofs.Scan.Uses
import WebBaseline.Proofs.Text.StableSort

/-!
# The order of files does not matter

A run scans files one after the other and sorts what it finds by file.  Every
scanner marks its issues with the path of the file that it was given, so the
issues are those of the files, one file after the other, in the order of their
paths.  In which order the files were given shows only where paths repeat.

* `filter_flatMap_scanFile` — the issues with a path are those of the files with it;
* `sortByPath_congr` — sorted files do not depend on the order in which they were given;
* `sortByFile_flatMap_scanFile` — sorting issues comes to sorting files;
* `issues_run` — the issues of a run, wherever it is cancelled;
* `run_order_independent` — the runs over all lists of files.
-/

namespace WebBaseline

namespace Scanner

variable (s : Scanner)

/-- The issues with a path are those of the files with that path. -/
theorem filter_flatMap_scanFile (files : List SourceFile) (path : String) :
    (files.flatMap s.scanFile).filter (·.file == path) =
      (files.filter (·.path == path)).flatMap s.scanFile := by
  induction files with
  | nil => rfl
  | cons file rest ih =>
      rw [List.flatMap_cons, List.filter_append, ih, List.filter_cons]
      by_cases hpath : file.path = path
      · have hall : (s.scanFile file).filter (·.file == path) = s.scanFile file := by
          rw [List.filter_eq_self]
          intro i hi
          rw [s.file_of_mem_scanFile hi, hpath, beq_self_eq_true]
        rw [hall, if_pos (beq_iff_eq.mpr hpath), List.flatMap_cons]
      · have hnone : (s.scanFile file).filter (·.file == path) = [] := by
          rw [List.filter_eq_nil_iff]
          intro i hi
          rw [s.file_of_mem_scanFile hi, beq_iff_eq]
          exact hpath
        rw [hnone, List.nil_append, if_neg (mt beq_iff_eq.mp hpath)]

end Scanner

/-! ### Sorting files -/

/-- A result depends on its issues in the order of their files only. -/
theorem ScanResult.ofIssues_congr {issues others : List Issue}
    (h : sortByFile issues = sortByFile others) : ofIssues issues = ofIssues others := by
  rw [ofIssues, ofIssues, h]

/-- Files in the order of their paths; those with one path keep their order. -/
def SourceFile.sortByPath (files : List SourceFile) : List SourceFile :=
  files.mergeSort fun a b => decide (a.path ≤ b.path)

/-- Files are sorted stably. -/
theorem stablySorted_sortByPath (files : List SourceFile) :
    StablySorted SourceFile.path files (SourceFile.sortByPath files) :=
  stablySorted_mergeSort (fun _ _ => decide_eq_true_iff) files

/-- Without repeated paths the order in which files are given does not show
when they are sorted. -/
theorem sortByPath_congr {files other : List SourceFile} (hperm : files.Perm other)
    (hpaths : (files.map SourceFile.path).Nodup) :
    SourceFile.sortByPath files = SourceFile.sortByPath other := by
  have hsorted := stablySorted_sortByPath files
  have hsorted' := stablySorted_sortByPath other
  have hsame := (hsorted.permuted.trans hperm).trans hsorted'.permuted.symm
  refine List.Perm.eq_of_pairwise ?_ hsorted.ordered hsorted'.ordered hsame
  intro a b ha hb hab hba
  have hpath : a.path = b.path :=
    String.le_antisymm ((Text.le_iff_bytes_le _ _).mpr hab) ((Text.le_iff_bytes_le _ _).mpr hba)
  exact List.inj_on_of_nodup_map hpaths (hsorted.permuted.mem_iff.mp ha)
    ((hsame.trans hsorted'.permuted |>.trans hperm.symm).mem_iff.mp (hsame.mem_iff.mpr hb)) hpath

namespace Scanner

variable (s : Scanner)

/-- **Sorting issues and sorting files.**  The issues of files, sorted by file,
are those of the sorted files. -/
theorem sortByFile_flatMap_scanFile (files : List SourceFile) :
    ScanResult.sortByFile (files.flatMap s.scanFile) =
      (SourceFile.sortByPath files).flatMap s.scanFile := by
  have hsorted := stablySorted_sortByPath files
  have hissues := ScanResult.stablySorted_sortByFile (files.flatMap s.scanFile)
  refine eq_of_blocks hissues.ordered ?_ fun path => ?_
  · rw [List.pairwise_flatMap]
    refine ⟨fun file _ => List.pairwise_of_forall_mem_list fun i hi j hj => ?_,
      hsorted.ordered.imp fun hle i hi j hj => ?_⟩
    · rw [s.file_of_mem_scanFile hi, s.file_of_mem_scanFile hj]
      exact List.le_refl _
    · rwa [s.file_of_mem_scanFile hi, s.file_of_mem_scanFile hj]
  · rw [hissues.stable, s.filter_flatMap_scanFile, s.filter_flatMap_scanFile, hsorted.stable]

/-- The issues of a run are those of the files it covers, in the order of their paths. -/
theorem issues_run {σ : Type} {c : Canceller σ} {files : List SourceFile} {count : Nat}
    (hstops : StopsAt (CancelledAt c files.length) files.length count) :
    (s.run c files).result.issues =
      (SourceFile.sortByPath (files.take count)).flatMap s.scanFile := by
  obtain ⟨other, hother, hresult⟩ := s.exists_result_run c files
  obtain rfl : count = other := hstops.unique hother
  rw [hresult, ← s.sortByFile_flatMap_scanFile]
  rfl

/-- A run that nothing cancels stops after the last file. -/
theorem stopsAt_never (total : Nat) : StopsAt (CancelledAt .never total) total total :=
  ⟨Nat.le_refl total, fun _ _ => Bool.false_ne_true, fun h => absurd h (Nat.lt_irrefl total)⟩

/-- A run that nothing cancels covers all files. -/
theorem result_run_never (files : List SourceFile) :
    (s.run .never files).result = .ofIssues (files.flatMap s.scanFile) := by
  obtain ⟨count, hstops, hresult⟩ := s.exists_result_run .never files
  obtain rfl : count = files.length := hstops.unique (stopsAt_never files.length)
  rw [hresult, List.take_length]

/-- **The order of files.**  For all parsers, catalogs, settings and files:

* the issues are those of the files, one file after the other, in the byte
  order of their paths, files with one path in the order in which they were given;
* files with distinct paths have one result, in whichever order they are given;
* the issues with a path are those of the files with that path, each with the
  issues that it has in a run of its own, whatever the other files are. -/
theorem run_order_independent (parsers : Parsers) (catalog : List FeatureRecord)
    (settings : ScanSettings) (files : List SourceFile) :
    let s := ofCatalog parsers catalog settings
    let result := fun files => (s.run .never files).result
    (StablySorted SourceFile.path files (SourceFile.sortByPath files) ∧
      (result files).issues = (SourceFile.sortByPath files).flatMap s.scanFile) ∧
    (∀ other, files.Perm other → (files.map SourceFile.path).Nodup →
      result other = result files) ∧
    (∀ path, (result files).issues.filter (·.file == path) =
      (files.filter (·.path == path)).flatMap fun file => (result [file]).issues) ∧
    ∀ file, (result [file]).issues = s.scanFile file := by
  intro s result
  have hissues : ∀ files, (result files).issues =
      (SourceFile.sortByPath files).flatMap s.scanFile := by
    intro files
    change (s.run .never files).result.issues = _
    rw [s.result_run_never, ← s.sortByFile_flatMap_scanFile]
    rfl
  have halone : ∀ file, (result [file]).issues = s.scanFile file := by
    intro file
    rw [hissues, SourceFile.sortByPath, List.mergeSort_singleton, List.flatMap_singleton]
  refine ⟨⟨stablySorted_sortByPath files, hissues files⟩, ?_, ?_, halone⟩
  · intro other hperm hpaths
    change (s.run .never other).result = (s.run .never files).result
    rw [s.result_run_never, s.result_run_never]
    refine ScanResult.ofIssues_congr ?_
    rw [s.sortByFile_flatMap_scanFile, s.sortByFile_flatMap_scanFile,
      sortByPath_congr hperm hpaths]
  · intro path
    have hsorted := stablySorted_sortByPath files
    rw [hissues, filter_flatMap_scanFile, hsorted.stable]
    exact List.flatMap_congr fun file _ => (halone file).symm

end Scanner

end WebBaseline
