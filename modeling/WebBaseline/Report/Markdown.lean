import WebBaseline.Report.Basic

/-!
# Reports in Markdown

A heading, a table with the summary, and for each priority that occurs a
section with a table of its issues, one row for each.
-/

namespace WebBaseline.Report

/-- A text in a cell of a table: a vertical bar is escaped. -/
def cellText (s : String) : String :=
  String.join (s.toList.map fun c => if c = '|' then "\\|" else String.singleton c)

/-- The row of an issue. -/
def issueRow (i : Issue) : String :=
  "| \x60" ++ i.file ++ ":" ++ i.location.text ++ "\x60 | " ++ cellText i.name ++ " | \x60"
    ++ i.featureId ++ "\x60 | " ++ i.status.label ++ " |"

/-- A row of the summary. -/
def summaryRow (metric value : String) : String := "| " ++ metric ++ " | " ++ value ++ " |"

/-- The issues of one priority. -/
structure Section where
  priority : Priority
  issues : List Issue
deriving DecidableEq, Repr

/-- The lines of a section. -/
def Section.lines (s : Section) : List String :=
  ["", "## " ++ s.priority.name ++ " Priority (" ++ toString s.issues.length ++ ")", "",
   "| Location | Feature | Identifier | Status |",
   "|----------|---------|------------|--------|"] ++ s.issues.map issueRow

variable (r : Report)

/-- The sections of a report: one for each priority that occurs, the most urgent first. -/
def sections : List Section :=
  (Priority.all.map fun p => ⟨p, r.issuesOf p⟩).filter fun s => !s.issues.isEmpty

/-- The lines before the sections. -/
def summaryLines : List String :=
  ["# Baseline Report: " ++ r.root, "",
   "**Generated**: " ++ timestampText "+00:00" r.generatedAt,
   "**Catalog**: " ++ toString r.catalogSize ++ " features (" ++ r.freshness.title ++ ")"
     ++ (if r.offline then ", offline" else ""),
   "", "## Summary", "", "| Metric | Value |", "|--------|-------|",
   summaryRow "Score" r.scoreText,
   summaryRow "Files scanned" (toString r.filesScanned)]
  ++ Status.all.map fun s => summaryRow s.label (toString (r.result.counts.get s))

/-- The lines of a report. -/
def markdownLines : List String := r.summaryLines ++ r.sections.flatMap Section.lines

/-- The Markdown text of a report. -/
def markdownText : String := textOfLines r.markdownLines

end WebBaseline.Report
