import WebBaseline.Proofs.Report.Reimport
import WebBaseline.Proofs.Scan.Openings
import WebBaseline.Proofs.Scan.Relevance
import WebBaseline.Proofs.Scan.StyleQueries
import WebBaseline.Scan.Parsers

/-!
# Languages by themselves

The scanner of a language can be used alone, with an index made for it, and a run can do with the
scanners of some languages.  Neither shows in what is found: style sheets and markup documents make
no use of the table of names, and a file is scanned by the scanner of its language or not at all.

* `styleIssues_build_congr`, `markupIssues_build_congr` — the table of names does not matter;
* `scanFile_withLanguages` — a file under the scanners of some languages;
* `run_reports_alike` — when a run stops and what it reports does not depend on its scanners;
* `languages_by_themselves` — the scanners of a catalog, one by one and some of them.
-/

namespace WebBaseline

namespace Scan

/-- The issues of a style sheet are the same for every table of names. -/
theorem styleIssues_build_congr (rules : StyleRules) (catalog : List FeatureRecord)
    (table other : NameTable) (policy : PriorityPolicy) (path source : String)
    (tree : SyntaxTree) :
    styleIssues rules (.build catalog table policy) path source tree =
      styleIssues rules (.build catalog other policy) path source tree := by
  rw [styleIssues_build, styleIssues_build]

/-- So are those of a markup document. -/
theorem markupIssues_build_congr (catalog : List FeatureRecord) (table other : NameTable)
    (policy : PriorityPolicy) (path source : String) (tree : SyntaxTree) :
    markupIssues (.build catalog table policy) path source tree =
      markupIssues (.build catalog other policy) path source tree := by
  rw [markupIssues_build, markupIssues_build]

end Scan

/-- Whether a file's language is among some languages. -/
def ScanLanguage.covers (languages : List ScanLanguage) (path : String) : Bool :=
  (ofPath path).any languages.contains

namespace Scanner

variable (s : Scanner)

/-- The scanners of some languages in place of those that there are. -/
def withLanguages (languages : List ScanLanguage) : Scanner := { s with languages }

/-- A file that has the language of a scanner is scanned in it. -/
theorem scanFile_of_mem {file : SourceFile} {language : ScanLanguage}
    (hpath : ScanLanguage.ofPath file.path = some language) (hmem : language ∈ s.languages) :
    s.scanFile file = s.scanText language file.path file.content := by
  simp only [scanFile, hpath]
  exact if_pos (List.contains_iff_mem.mpr hmem)

/-- **Some languages.**  Where there are scanners of all languages, those of some scan the files of
these as before, and no others. -/
theorem scanFile_withLanguages (hall : ∀ language, language ∈ s.languages)
    (languages : List ScanLanguage) (file : SourceFile) :
    (s.withLanguages languages).scanFile file =
      if ScanLanguage.covers languages file.path then s.scanFile file else [] := by
  cases hpath : ScanLanguage.ofPath file.path with
  | none => simp [scanFile, ScanLanguage.covers, hpath]
  | some language =>
      rw [s.scanFile_of_mem hpath (hall language)]
      simp only [scanFile, ScanLanguage.covers, hpath, Option.any_some]
      rfl

/-- There are scanners of all languages for every catalog. -/
theorem mem_languages_ofCatalog (parsers : Parsers) (catalog : List FeatureRecord)
    (settings : ScanSettings) (language : ScanLanguage) :
    language ∈ (ofCatalog parsers catalog settings).languages := by
  change language ∈ ScanLanguage.all
  cases language <;> decide

/-- Standard settings add no names to the built-in ones, and have the standard policy. -/
theorem index_ofCatalog_standard (parsers : Parsers) (catalog : List FeatureRecord) :
    (ofCatalog parsers catalog {}).index = .build catalog .builtIn .standard := by
  have htable : NameTable.withExtras NameTable.empty.entries = .builtIn := List.foldl_nil
  exact congrArg (FeatureIndex.build catalog · .standard) htable

/-- A file that has a language is scanned in it by the scanners for a catalog. -/
theorem scanFile_ofCatalog (parsers : Parsers) (catalog : List FeatureRecord)
    (settings : ScanSettings) {path : String} (source : String) {language : ScanLanguage}
    (hpath : ScanLanguage.ofPath path = some language) :
    (ofCatalog parsers catalog settings).scanFile ⟨path, source⟩ =
      (ofCatalog parsers catalog settings).scanText language path source :=
  scanFile_of_mem _ hpath (mem_languages_ofCatalog _ _ _ language)

/-- The scanner of scripts alone finds what it finds among the standard scanners. -/
theorem scanScript_eq (catalog : List FeatureRecord) (path source : String) :
    scanScript catalog path source =
      (ofCatalog .standard catalog {}).scanText .script path source := by
  rw [scanText, index_ofCatalog_standard]
  rfl

/-- So does that of style sheets, with no names at all. -/
theorem scanStyle_eq (catalog : List FeatureRecord) (path source : String) :
    scanStyle catalog path source =
      (ofCatalog .standard catalog {}).scanText .style path source := by
  rw [scanText, index_ofCatalog_standard, Scan.styleIssues_build_congr _ _ _ .empty]
  rfl

/-- So does that of markup. -/
theorem scanMarkup_eq (catalog : List FeatureRecord) (path source : String) :
    scanMarkup catalog path source =
      (ofCatalog .standard catalog {}).scanText .markup path source := by
  rw [scanText, index_ofCatalog_standard, Scan.markupIssues_build_congr _ _ .empty]
  rfl

/-- When a run stops and what it reports does not depend on what its scanners find. -/
theorem run_reports_alike {σ : Type} (t : Scanner) (c : Canceller σ) (files : List SourceFile) :
    (s.run c files).progress = (t.run c files).progress ∧
      (s.run c files).filesScanned = (t.run c files).filesScanned ∧
      (s.run c files).cancelled = (t.run c files).cancelled := by
  by_cases hfiles : files = []
  · subst hfiles
    exact ⟨rfl, rfl, rfl⟩
  · obtain ⟨count, hstops, hcovers⟩ := covers_run s c hfiles
    obtain ⟨other, hother, hcovers'⟩ := covers_run t c hfiles
    obtain rfl := hstops.unique hother
    refine ⟨?_, ?_, ?_⟩
    · rw [hcovers.progress, hcovers'.progress]
    · rw [hcovers.filesScanned, hcovers'.filesScanned]
    · rw [Bool.eq_iff_iff, hcovers.cancelled, hcovers'.cancelled]

/-- The result of a run is that of its issues. -/
theorem ofIssues_issues_run {σ : Type} (c : Canceller σ) (files : List SourceFile) :
    ScanResult.ofIssues (s.run c files).result.issues = (s.run c files).result := by
  obtain ⟨count, -, hresult⟩ := s.exists_result_run c files
  rw [hresult]
  exact (ScanResult.derived_ofIssues _).ofIssues_eq

/-- The issues of a run with the scanners of some languages are those of the files of these. -/
theorem issues_run_withLanguages (hall : ∀ language, language ∈ s.languages)
    (languages : List ScanLanguage) {σ : Type} (c : Canceller σ) (files : List SourceFile) :
    ((s.withLanguages languages).run c files).result.issues =
      (s.run c files).result.issues.filter fun i => ScanLanguage.covers languages i.file := by
  obtain ⟨count, hstops, -⟩ := s.exists_result_run c files
  rw [issues_run _ hstops, issues_run _ hstops, List.filter_flatMap]
  refine List.flatMap_congr fun file _ => ?_
  rw [s.filter_scanFile, s.scanFile_withLanguages hall]

/-- To leave files to no scanner is to leave them out. -/
theorem flatMap_scanFile_withLanguages (hall : ∀ language, language ∈ s.languages)
    (languages : List ScanLanguage) (files : List SourceFile) :
    files.flatMap (s.withLanguages languages).scanFile =
      (files.filter fun file => ScanLanguage.covers languages file.path).flatMap s.scanFile := by
  induction files with
  | nil => rfl
  | cons file rest ih =>
      rw [List.flatMap_cons, ih, s.scanFile_withLanguages hall, List.filter_cons]
      split
      · rw [List.flatMap_cons]
      · rfl

/-- **Languages by themselves.**  For all catalogs:

* the scanner of a language, used alone on a text with an index of its own, finds what the standard
  scanners find in a file with that text whose path has this language;
* for all parsers, settings and files, and whatever cancels the runs, the scanners of some languages
  find exactly what those of all languages find in the files of these, they report the same
  percentages and stop at the same file, and the files of other languages could as well be left
  out. -/
theorem languages_by_themselves (catalog : List FeatureRecord) :
    (∀ path source,
      let issues := (ofCatalog .standard catalog {}).scanFile ⟨path, source⟩
      (ScanLanguage.ofPath path = some .script → scanScript catalog path source = issues) ∧
      (ScanLanguage.ofPath path = some .style → scanStyle catalog path source = issues) ∧
      (ScanLanguage.ofPath path = some .markup → scanMarkup catalog path source = issues)) ∧
    (∀ (parsers : Parsers) (settings : ScanSettings) (languages : List ScanLanguage) {σ : Type}
        (c : Canceller σ) (files : List SourceFile),
      let every := ofCatalog parsers catalog settings
      let run := every.run c files
      let few := (every.withLanguages languages).run c files
      few.result.issues =
          run.result.issues.filter (fun i => ScanLanguage.covers languages i.file) ∧
        few.result =
          .ofIssues (run.result.issues.filter fun i => ScanLanguage.covers languages i.file) ∧
        few.progress = run.progress ∧ few.filesScanned = run.filesScanned ∧
        few.cancelled = run.cancelled ∧
        ((every.withLanguages languages).run .never files).result =
          (every.run .never
            (files.filter fun file => ScanLanguage.covers languages file.path)).result) := by
  constructor
  · intro path source issues
    refine ⟨fun h => ?_, fun h => ?_, fun h => ?_⟩
    · exact (scanScript_eq catalog path source).trans (scanFile_ofCatalog _ _ _ _ h).symm
    · exact (scanStyle_eq catalog path source).trans (scanFile_ofCatalog _ _ _ _ h).symm
    · exact (scanMarkup_eq catalog path source).trans (scanFile_ofCatalog _ _ _ _ h).symm
  · intro parsers settings languages σ c files every run few
    have hall := mem_languages_ofCatalog parsers catalog settings
    have hissues := every.issues_run_withLanguages hall languages c files
    have halike := run_reports_alike (every.withLanguages languages) every c files
    refine ⟨hissues, ?_, halike.1, halike.2.1, halike.2.2, ?_⟩
    · rw [← hissues]
      exact (ofIssues_issues_run _ c files).symm
    · rw [result_run_never, result_run_never,
        every.flatMap_scanFile_withLanguages hall]

end Scanner

end WebBaseline
