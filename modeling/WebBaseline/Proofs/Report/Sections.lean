import WebBaseline.Proofs.Scan.ResultInvariant
import WebBaseline.Proofs.Text.Blocks
import WebBaseline.Proofs.Text.Lines
import WebBaseline.Report.Markdown

/-!
# The sections of a report

The issues of a report are listed by priority, in a section for each priority
that occurs.  Priorities may be edited after the counts of statuses were made,
yet the sections and the summary account for the same issues.

* `sections_eq`, `perm_sections`, `sum_length_sections` — the sections hold every issue once;
* `Section.lines_eq` — the lines of a section: its heading counts its rows;
* `lines_markdownText` — the lines of the text of a report;
* `filter_isHeading_lines`, `filter_isRow_lines` — headings and rows, read from these lines;
* `sections_partition_issues` — the sections of every report.
-/

namespace WebBaseline

/-- Whether the texts of an issue have no line breaks. -/
structure Issue.OnOneLine (i : Issue) : Prop where
  file : Text.OnOneLine i.file
  name : Text.OnOneLine i.name
  featureId : Text.OnOneLine i.featureId

namespace Report

/-! ### Which sections there are -/

section Partition

variable (r : Report)

/-- There is a section for each priority that occurs. -/
theorem sections_eq : r.sections =
    (Priority.all.filter fun p => r.result.issues.any (·.priority == p)).map
      fun p => ⟨p, r.issuesOf p⟩ := by
  rw [sections, List.filter_map]
  congr 1
  refine List.filter_congr fun p _ => ?_
  rw [Bool.eq_iff_iff]
  simp [issuesOf, List.filter_eq_nil_iff]

/-- A section holds the issues of its priority, and there are some. -/
theorem issues_of_mem_sections {r : Report} {s : Section} (hs : s ∈ r.sections) :
    s.issues = r.issuesOf s.priority ∧ s.issues ≠ [] := by
  obtain ⟨hmem, hsome⟩ := List.mem_filter.mp hs
  obtain ⟨p, -, rfl⟩ := List.mem_map.mp hmem
  refine ⟨rfl, fun hnil => ?_⟩
  rw [hnil] at hsome
  cases hsome

/-- The issues of the sections one after the other are the blocks of the issues. -/
theorem flatMap_issues_sections :
    r.sections.flatMap (·.issues) = blocks Issue.priority Priority.all r.result.issues := by
  have hskip : ∀ ss : List Section,
      (ss.filter fun s => !s.issues.isEmpty).flatMap (·.issues) = ss.flatMap (·.issues) := by
    intro ss
    induction ss with
    | nil => rfl
    | cons s rest ih =>
        rw [List.filter_cons]
        cases hissues : s.issues <;> simp [hissues, ih]
  rw [sections, hskip, List.flatMap_map]
  rfl

/-- **Each issue once.**  The sections hold the issues of the report. -/
theorem perm_sections : (r.sections.flatMap (·.issues)).Perm r.result.issues := by
  rw [flatMap_issues_sections]
  exact perm_blocks (by decide) fun i _ => Priority.mem_all i.priority

/-- The sections hold as many issues as the report. -/
theorem sum_length_sections : (r.sections.map (·.issues.length)).sum = r.result.issues.length := by
  rw [← List.length_flatMap]
  exact r.perm_sections.length_eq

end Partition

/-! ### Lines -/

/-- The line that starts a section of some rows. -/
def heading (p : Priority) (rows : Nat) : String :=
  "## " ++ p.name ++ " Priority (" ++ toString rows ++ ")"

/-- The lines between the heading of a section and its rows. -/
def columnLines : List String :=
  ["", "| Location | Feature | Identifier | Status |",
    "|----------|---------|------------|--------|"]

/-- The lines of a section: its heading counts the rows that follow. -/
theorem Section.lines_eq (s : Section) :
    s.lines = "" :: heading s.priority (s.issues.map issueRow).length ::
      (columnLines ++ s.issues.map issueRow) := by
  rw [List.length_map]
  rfl

/-- A heading stands on one line. -/
theorem onOneLine_heading (p : Priority) (rows : Nat) : Text.OnOneLine (heading p rows) := by
  have hname : Text.OnOneLine p.name := by cases p <;> decide
  simp only [heading, Text.onOneLine_append, hname, Text.onOneLine_natural, and_true]
  decide

/-- Escaping the bars of a text breaks no line. -/
theorem onOneLine_cellText {t : String} (h : Text.OnOneLine t) : Text.OnOneLine (cellText t) := by
  intro c hc
  rw [cellText, String.toList_join, List.flatMap_map] at hc
  obtain ⟨d, hd, hmem⟩ := List.mem_flatMap.mp hc
  split at hmem
  · have hescaped : Text.OnOneLine "\\|" := by decide
    exact hescaped c hmem
  · rw [String.toList_singleton, List.mem_singleton] at hmem
    exact hmem ▸ h d hd

/-- The parts of a row, from the left. -/
theorem issueRow_eq (i : Issue) : issueRow i = "| \x60" ++ (i.file ++ (":" ++ (i.location.text ++
    ("\x60 | " ++ (cellText i.name ++ (" | \x60" ++ (i.featureId ++ ("\x60 | " ++
      (i.status.label ++ " |"))))))))) := by
  -- The equation that is made for `issueRow` takes long, for the texts in it are compared.
  delta issueRow
  simp only [String.append_assoc]

/-- The row of an issue stands on one line. -/
theorem onOneLine_issueRow {i : Issue} (h : i.OnOneLine) : Text.OnOneLine (issueRow i) := by
  have hlabel : Text.OnOneLine i.status.label := by cases i.status <;> decide
  rw [issueRow_eq]
  simp only [Location.text, Text.onOneLine_append, Text.onOneLine_natural, h.file,
    onOneLine_cellText h.name, h.featureId, hlabel, and_true, true_and]
  decide

/-- The lines of a section stand on one line each. -/
theorem onOneLine_of_mem_lines {s : Section} (h : ∀ i ∈ s.issues, i.OnOneLine) :
    ∀ l ∈ s.lines, Text.OnOneLine l := by
  have hcolumns : ∀ l ∈ columnLines, Text.OnOneLine l := by decide
  rw [Section.lines_eq]
  simp only [List.forall_mem_cons, List.forall_mem_append, List.forall_mem_map]
  exact ⟨by decide, onOneLine_heading _ _, hcolumns, fun i hi => onOneLine_issueRow (h i hi)⟩

/-- **The lines of a report.**  Unless issues have line breaks in them, the lines
of the sections are read back from the text. -/
theorem lines_markdownText {r : Report} (h : ∀ i ∈ r.result.issues, i.OnOneLine) :
    Text.lines r.markdownText =
      r.summaryLines.flatMap Text.lines ++ r.sections.flatMap Section.lines ++ [""] := by
  have hsections : ∀ l ∈ r.sections.flatMap Section.lines, Text.OnOneLine l := by
    intro l hl
    obtain ⟨s, hs, hl⟩ := List.mem_flatMap.mp hl
    refine onOneLine_of_mem_lines (fun i hi => h i ?_) l hl
    exact r.perm_sections.mem_iff.mp (List.mem_flatMap.mpr ⟨s, hs, hi⟩)
  rw [markdownText, Text.lines_textOfLines, markdownLines, List.flatMap_append,
    Text.flatMap_lines_eq_self hsections]

/-! ### Headings and rows -/

/-- Whether a line starts as headings of sections do. -/
def isHeading (l : String) : Bool := "## ".toList.isPrefixOf l.toList

/-- Whether a line starts as rows of issues do. -/
def isRow (l : String) : Bool := "| \x60".toList.isPrefixOf l.toList

theorem isHeading_heading (p : Priority) (rows : Nat) : isHeading (heading p rows) = true := by
  simp [isHeading, heading]

theorem isRow_heading (p : Priority) (rows : Nat) : isRow (heading p rows) = false := by
  simp [isRow, heading, List.isPrefixOf]

theorem isHeading_issueRow (i : Issue) : isHeading (issueRow i) = false := by
  rw [issueRow_eq]
  simp [isHeading, List.isPrefixOf]

theorem isRow_issueRow (i : Issue) : isRow (issueRow i) = true := by
  rw [issueRow_eq]
  simp [isRow]

/-- The headings among the lines of the sections are one for each section. -/
theorem filter_isHeading_lines (ss : List Section) :
    (ss.flatMap Section.lines).filter isHeading =
      ss.map fun s => heading s.priority s.issues.length := by
  have hsection : ∀ s : Section, s.lines.filter isHeading =
      [heading s.priority s.issues.length] := by
    intro s
    have hrows : (s.issues.map issueRow).filter isHeading = [] := by
      simp [isHeading_issueRow]
    rw [Section.lines_eq, List.length_map, List.filter_cons_of_neg (by decide),
      List.filter_cons_of_pos (isHeading_heading _ _), List.filter_append, hrows]
    rfl
  rw [List.filter_flatMap, List.flatMap_congr fun s _ => hsection s, List.map_eq_flatMap]

/-- The rows among the lines of the sections are one for each issue in them. -/
theorem filter_isRow_lines (ss : List Section) :
    (ss.flatMap Section.lines).filter isRow = (ss.flatMap (·.issues)).map issueRow := by
  have hsection : ∀ s : Section, s.lines.filter isRow = s.issues.map issueRow := by
    intro s
    have hrows : (s.issues.map issueRow).filter isRow = s.issues.map issueRow := by
      simp [List.filter_eq_self, isRow_issueRow]
    rw [Section.lines_eq, List.length_map, List.filter_cons_of_neg (by decide),
      List.filter_cons_of_neg (by simp [isRow_heading]), List.filter_append, hrows]
    rfl
  rw [List.filter_flatMap, List.flatMap_congr fun s _ => hsection s, List.map_flatMap]

/-! ### All reports -/

/-- The rows of the summary end with the number of issues of each status. -/
theorem exists_summaryLines_eq (r : Report) : ∃ before, r.summaryLines =
    before ++ Status.all.map fun s => summaryRow s.label (toString (r.result.counts.get s)) :=
  ⟨_, rfl⟩

/-- The text of a report is its summary, followed by the texts of its sections. -/
theorem markdownText_eq (r : Report) : r.markdownText =
    textOfLines r.summaryLines ++ textOfLines (r.sections.flatMap Section.lines) := by
  rw [markdownText, markdownLines, Text.textOfLines_append]

/-- **Sections and issues.**  For every report on a result that was edited in any way:

* its text is the summary, which ends with the four counts of statuses, and then
  the sections: one for each priority that occurs, the most urgent first;
* a section holds the issues of its priority in the order of the result, one row
  for each, and its heading gives the number of these rows;
* the sections hold every issue once, so the numbers in their headings add up to
  what the counts of statuses add up to;
* unless an issue has line breaks in it, all this can be read from the lines of
  the text. -/
theorem sections_partition_issues (context : Report) (input : List Issue)
    (edits : List (Nat × Priority)) :
    let r := { context with result := (ScanResult.ofIssues input).edited edits }
    let issues := r.result.issues
    (r.markdownText =
      textOfLines r.summaryLines ++ textOfLines (r.sections.flatMap Section.lines) ∧
      ∃ before, r.summaryLines =
        before ++ Status.all.map fun s => summaryRow s.label (toString (r.result.counts.get s))) ∧
    (r.sections.map (·.priority) = Priority.all.filter fun p => issues.any (·.priority == p)) ∧
    (∀ s ∈ r.sections, s.issues ≠ [] ∧ s.issues = issues.filter (·.priority == s.priority) ∧
      s.lines = "" :: heading s.priority (s.issues.map issueRow).length ::
        (columnLines ++ s.issues.map issueRow)) ∧
    (r.sections.flatMap (·.issues)).Perm issues ∧
    (r.sections.map fun s => (s.issues.map issueRow).length).sum =
      (Status.all.map r.result.counts.get).sum ∧
    ((∀ i ∈ issues, i.OnOneLine) →
      Text.lines r.markdownText =
        r.summaryLines.flatMap Text.lines ++ r.sections.flatMap Section.lines ++ [""] ∧
      (r.sections.flatMap Section.lines).filter isHeading =
        r.sections.map (fun s => heading s.priority s.issues.length) ∧
      (r.sections.flatMap Section.lines).filter isRow =
        (r.sections.flatMap (·.issues)).map issueRow) := by
  intro r issues
  have hpriorities : r.sections.map (·.priority) =
      Priority.all.filter fun p => issues.any (·.priority == p) := by
    rw [sections_eq, List.map_map]
    exact List.map_id' _
  have hsum : (r.sections.map fun s => (s.issues.map issueRow).length).sum =
      (Status.all.map r.result.counts.get).sum := by
    have htotal : r.result.counts.total = issues.length :=
      ((ScanResult.derived_ofIssues input).edited edits).total
    simp only [List.length_map]
    rw [sum_length_sections, ← htotal]
    simp only [Status.all, List.map_cons, List.map_nil, List.sum_cons, List.sum_nil, Counts.total,
      Counts.get]
    omega
  refine ⟨⟨r.markdownText_eq, r.exists_summaryLines_eq⟩, hpriorities, fun s hs => ?_,
    r.perm_sections, hsum, fun hlines => ?_⟩
  · obtain ⟨hissues, hsome⟩ := issues_of_mem_sections hs
    exact ⟨hsome, hissues, s.lines_eq⟩
  · exact ⟨lines_markdownText hlines, filter_isHeading_lines _, filter_isRow_lines _⟩

end Report

end WebBaseline
