import WebBaseline.Report.Basic

/-!
# Reports in a terminal

A box with the summary, all lines of which are equally long, and after it one
entry for each issue.
-/

namespace WebBaseline.Report

/-- The number of characters of a field in the box. -/
def fieldWidth : Nat := 54

/-- A line across the box, between two corners. -/
def boxRule (left right : Char) : String :=
  String.ofList (left :: List.replicate (fieldWidth + 4) '─' ++ [right])

/-- A line of the box that holds a field. -/
def boxLine (field : String) : String := "│  " ++ Text.padRight fieldWidth field ++ "  │"

/-- The line of the box that holds the title. -/
def titleLine (title : String) : String := "│ " ++ Text.padRight (fieldWidth + 3) title ++ "│"

/-- A field with its name. -/
def labelled (name value : String) : String := Text.padRight 14 (name ++ ":") ++ value

variable (r : Report)

/-- The fields of the box. -/
def fields : List String :=
  [labelled "Score" r.scoreText, labelled "Files" (toString r.filesScanned),
   labelled "Issues" (toString r.result.issues.length)]
  ++ (Status.all.map fun s =>
    "  " ++ Text.padRight 22 s.label ++ toString (r.result.counts.get s))
  ++ [labelled "Catalog"
    (toString r.catalogSize ++ " features" ++ (if r.offline then " (offline)" else ""))]

/-- The lines of the box. -/
def boxLines : List String :=
  [boxRule '┌' '┐', titleLine "Baseline Scan Summary", boxRule '├' '┤']
  ++ r.fields.map boxLine ++ [boxRule '└' '┘']

/-- The entry of an issue. -/
def issueEntry (i : Issue) : String :=
  i.file ++ ":" ++ i.location.text ++ "  [" ++ i.priority.name ++ "] " ++ i.name ++ " ("
    ++ i.featureId ++ ", " ++ i.status.label ++ ")"

/-- The lines of a report. -/
def terminalLines : List String :=
  [""] ++ r.boxLines
  ++ (if r.cancelled then ["", "Scan cancelled; results are partial."] else [])
  ++ (if r.result.issues.isEmpty then [] else [""])
  ++ r.result.issues.map issueEntry

/-- The text of a report for a terminal. -/
def terminalText : String := textOfLines r.terminalLines

end WebBaseline.Report
