import WebBaseline.Proofs.Report.Sections
import WebBaseline.Proofs.Text.Bars

/-!
# Rows of issues

An issue is one line of the table of its section.  The line has four cells if
its bars that are not escaped are the five between and around them.  Bars are
escaped in names only, and without regard to the backslashes before them.

* `openBars_issueRow` — how many bars of a row are not escaped;
* `issue_rows_by_bars` — the rows of a report, and which of them have four cells;
* `rows_with_a_bar_too_many` — rows that have five.
-/

namespace WebBaseline.Report

open Text

/-- A number has no bars. -/
theorem bar_not_mem_natural (n : Nat) : '|' ∉ (toString n).toList := fun h =>
  absurd (isDigit_of_mem_natural h) (by decide)

/-- A location has no bars. -/
theorem bars_location (odd : Bool) (l : Location) : bars odd l.text = 0 := by
  refine bars_eq_zero ?_
  simp only [Location.text, String.toList_append, List.mem_append, bar_not_mem_natural, or_false,
    false_or]
  decide

/-- The label of a status has no bars. -/
theorem bars_label (odd : Bool) (s : Status) : bars odd s.label = 0 := by
  refine bars_eq_zero ?_
  cases s <;> decide

/-- **The bars of a row.**  Beside its own five those of the file and the
identifier are not escaped that were not, and those of the name that were. -/
theorem openBars_issueRow (i : Issue) : openBars (issueRow i) =
    5 + openBars i.file + escapedBars i.name + openBars i.featureId := by
  have hstart : bars false "| \x60" = 1 := by decide
  have hcolon : bars false ":" = 0 := by decide
  have hclose : bars false "\x60 | " = 1 := by decide
  have hopen : bars false " | \x60" = 1 := by decide
  have hend : bars false " |" = 1 := by decide
  have hempty : bars false "" = 0 := by decide
  have hrow : issueRow i = "| \x60" ++ (i.file ++ (":" ++ (i.location.text ++ ("\x60 | " ++
      (cellText i.name ++ (" | \x60" ++ (i.featureId ++ ("\x60 | " ++
        (i.status.label ++ (" |" ++ "")))))))))) := by
    rw [issueRow_eq, String.append_empty]
  rw [openBars, hrow, bars_append_of_parity (by decide), bars_separated (by decide),
    bars_separated (by decide), bars_separated (by decide), bars_separated (by decide),
    bars_separated (by decide), hstart, hcolon, hclose, hopen, hend, hempty, bars_location,
    bars_label, ← openBars, ← openBars, ← openBars, openBars_cellText]
  omega

/-- A row has four cells if its file and its identifier have no bars but escaped
ones, and its name none but such that are not escaped. -/
theorem openBars_issueRow_eq_five_iff (i : Issue) : openBars (issueRow i) = 5 ↔
    openBars i.file = 0 ∧ escapedBars i.name = 0 ∧ openBars i.featureId = 0 := by
  rw [openBars_issueRow]
  omega

/-- **Rows of issues.**  In every report whose issues have no line breaks in them:

* the lines of the sections are read back from the text, and those that start as
  rows do are the rows of the issues, one for each;
* the bars of a row that are not escaped are five, those of its file and its
  identifier that are not escaped, and those of its name that are;
* so a row has four cells exactly if there are no such bars. -/
theorem issue_rows_by_bars (r : Report) (h : ∀ i ∈ r.result.issues, i.OnOneLine) :
    (Text.lines r.markdownText =
      r.summaryLines.flatMap Text.lines ++ r.sections.flatMap Section.lines ++ [""] ∧
      ∃ rows : List Issue, rows.Perm r.result.issues ∧
        (r.sections.flatMap Section.lines).filter isRow = rows.map issueRow) ∧
    ∀ i ∈ r.result.issues, OnOneLine (issueRow i) ∧
      openBars (issueRow i) =
        5 + openBars i.file + escapedBars i.name + openBars i.featureId ∧
      (openBars (issueRow i) = 5 ↔
        openBars i.file = 0 ∧ escapedBars i.name = 0 ∧ openBars i.featureId = 0) := by
  refine ⟨⟨lines_markdownText h, _, r.perm_sections, filter_isRow_lines _⟩, fun i hi => ?_⟩
  exact ⟨onOneLine_issueRow (h i hi), openBars_issueRow i, openBars_issueRow_eq_five_iff i⟩

/-- A use of a feature: of the given name, in the given file. -/
def gapIn (file name : String) : Issue where
  file
  featureId := "css-properties-gap"
  name
  status := .limited
  priority := .high
  line := 1
  column := 5

/-- The report of one use. -/
def reportOf (i : Issue) : Report where
  root := "src"
  generatedAt := 0
  filesScanned := 1
  cancelled := false
  catalogSize := 1
  freshness := .fresh
  offline := false
  result := .ofIssues [i]

theorem issues_reportOf (i : Issue) : (reportOf i).result.issues = [i] :=
  List.mergeSort_singleton i

/-- Bars in a name are escaped, and backslashes elsewhere do no harm. -/
theorem issue_rows_by_bars_escaped :
    let i := gapIn "src\\\\a.css" "a|b\\"
    (∀ j ∈ (reportOf i).result.issues, j.OnOneLine) ∧ openBars (issueRow i) = 5 := by
  intro i
  have hlines : ∀ j ∈ (reportOf i).result.issues, j.OnOneLine := by
    rw [issues_reportOf, List.forall_mem_singleton]
    exact ⟨by decide, by decide, by decide⟩
  have hi : i ∈ (reportOf i).result.issues := by
    rw [issues_reportOf]
    exact List.mem_singleton_self i
  refine ⟨hlines, ((issue_rows_by_bars (reportOf i) hlines).2 i hi).2.2.mpr ?_⟩
  decide

/-- A bar in the name of a file, or a backslash before one in the name of a
feature, gives the row of an issue one cell more. -/
theorem rows_with_a_bar_too_many :
    let inFile := gapIn "src/a|b.css" "gap"
    let inName := gapIn "src/a.css" "a\\|b"
    ((reportOf inFile).result.issues = [inFile] ∧ inFile.OnOneLine ∧
      openBars (issueRow inFile) = 6) ∧
    (reportOf inName).result.issues = [inName] ∧ inName.OnOneLine ∧
      openBars (issueRow inName) = 6 := by
  intro inFile inName
  refine ⟨⟨issues_reportOf inFile, ⟨by decide, by decide, by decide⟩, ?_⟩,
    issues_reportOf inName, ⟨by decide, by decide, by decide⟩, ?_⟩
  · rw [openBars_issueRow]
    decide
  · rw [openBars_issueRow]
    decide

end WebBaseline.Report
