import WebBaseline.Catalog.Snapshot
import WebBaseline.Json.Printer
import WebBaseline.Report.Timestamp
import WebBaseline.Scan.Run

/-!
# Reports

A report is the result of a scan with its context: what was scanned, when, how
far, and with which catalog.  Its JSON form holds the members of the result
beside those of the context.
-/

namespace WebBaseline

/-- A result with its context. -/
structure Report where
  root : String
  /-- When the report was made, in milliseconds since the start of 1970. -/
  generatedAt : Int
  filesScanned : Nat
  cancelled : Bool
  /-- The number of records in the catalog. -/
  catalogSize : Nat
  freshness : Catalog.Freshness
  /-- Whether the catalog is an expired one that stood in for the service. -/
  offline : Bool
  result : ScanResult
deriving DecidableEq, Repr

namespace Report

/-- The report of a run. -/
def ofRun (root : String) (run : ScanRun) (catalog : Catalog.Snapshot) (now : Int) : Report where
  root
  generatedAt := now
  filesScanned := run.filesScanned
  cancelled := run.cancelled
  catalogSize := catalog.records.length
  freshness := catalog.freshness
  offline := catalog.isOffline
  result := run.result

variable (r : Report)

/-- The members of the context, in the order in which they are written. -/
def contextMembers : List (String × Json) :=
  [("root", .text r.root), ("generatedAt", .text (timestampText "Z" r.generatedAt)),
   ("filesScanned", .integer r.filesScanned), ("cancelled", .bool r.cancelled),
   ("catalogFeatures", .integer r.catalogSize), ("catalogFreshness", .text r.freshness.name),
   ("offline", .bool r.offline)]

/-- The members of a report, in the order in which they are written. -/
def members : List (String × Json) := r.contextMembers ++ r.result.members

/-- The JSON text of a report. -/
def jsonText : String := Json.pretty (.object r.members)

/-- The score with its band. -/
def scoreText : String := toString r.result.score ++ " (" ++ r.result.band.name ++ ")"

/-- The issues of a priority, in the order of the result. -/
def issuesOf (p : Priority) : List Issue := r.result.issues.filter (·.priority == p)

end Report

/-- The lines of a text, each ended by a line feed. -/
def textOfLines (lines : List String) : String := String.join (lines.map (· ++ "\n"))

end WebBaseline
