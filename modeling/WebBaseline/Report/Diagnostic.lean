import WebBaseline.Scan.Issue

/-!
# Diagnostics for editors

Editors count lines and characters from zero, and want a range.  That of an
issue starts where the issue lies and is as long as its name.
-/

namespace WebBaseline

/-- How an editor shows a diagnostic. -/
inductive Severity where
  | warning
  | information
  | hint
deriving DecidableEq, Repr, Inhabited

namespace Severity

/-- The severity of a status. -/
def ofStatus : Status → Severity
  | .limited => warning
  | .newly => information
  | .widely | .unknown => hint

/-- The name of a severity. -/
def name : Severity → String
  | warning => "warning"
  | information => "information"
  | hint => "hint"

end Severity

/-- A line and a character, counted from zero; characters are bytes. -/
structure Position where
  line : Nat
  character : Nat
deriving DecidableEq, Repr, Inhabited

/-- The position of a line and a character of 32 bits. -/
def Position.ofWords (line character : UInt32) : Position := ⟨line.toNat, character.toNat⟩

/-- A note about a part of a file. -/
structure Diagnostic where
  file : String
  start : Position
  stop : Position
  severity : Severity
  message : String
  code : String
  source : String
deriving DecidableEq, Repr, Inhabited

namespace Diagnostic

/-- Who made a diagnostic. -/
def sourceName : String := "Baseline Scout"

/-- The diagnostic of an issue. -/
def ofIssue (i : Issue) : Diagnostic :=
  let (line, character) := i.location.fromZero
  let width := UInt32.ofNatClamp i.name.utf8ByteSize
  { file := i.file
    start := .ofWords line character
    stop := .ofWords line (Word.saturatingAdd character width)
    severity := .ofStatus i.status
    message := "The \x27" ++ i.name ++ "\x27 feature has " ++ i.status.label ++
      " support according to Baseline."
    code := i.featureId
    source := sourceName }

/-- Add an issue to the group of its file, or start a group at the end. -/
def addTo (issue : Issue) : List (String × List Diagnostic) → List (String × List Diagnostic)
  | [] => [(issue.file, [ofIssue issue])]
  | (file, group) :: rest =>
    if file = issue.file then (file, group ++ [ofIssue issue]) :: rest
    else (file, group) :: addTo issue rest

/-- The diagnostics of issues, grouped by file; files come in the order in which
they first occur. -/
def byFile (issues : List Issue) : List (String × List Diagnostic) :=
  issues.foldl (fun groups i => addTo i groups) []

end Diagnostic

end WebBaseline
