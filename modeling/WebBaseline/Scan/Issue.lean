import WebBaseline.Feature.Status
import WebBaseline.Json.Decoding
import WebBaseline.Scan.Location

/-!
# Issues

One use of a catalog's feature in a file that was scanned.
-/

namespace WebBaseline

/-- A use of a feature. -/
structure Issue where
  file : String
  featureId : String
  /-- The name of the feature when the file was scanned. -/
  name : String
  status : Status
  priority : Priority
  line : UInt32
  column : UInt32
deriving DecidableEq, Repr, Inhabited

namespace Issue

/-- Where the use is. -/
def location (i : Issue) : Location := ⟨i.line, i.column⟩

open Decoding

/-- Read a status. -/
def readStatus : Json → Except Fault Status := Json.format.readChoice Status.names

/-- Read a priority. -/
def readPriority : Json → Except Fault Priority := Json.format.readChoice Priority.names

/-- Read a text. -/
def readText : Json → Except Fault String := Json.format.text "a string"

/-- The fields of an issue. -/
def fields : List (Field Json Fault Issue) :=
  [ .mandatory "file" readText (fun a i => { i with file := a }),
    .mandatory "featureId" readText (fun a i => { i with featureId := a }),
    .mandatory "name" readText (fun a i => { i with name := a }),
    .mandatory "status" readStatus (fun a i => { i with status := a }),
    .mandatory "priority" readPriority (fun a i => { i with priority := a }),
    .mandatory "line" Location.readCount (fun a i => { i with line := a }),
    .mandatory "column" Location.readCount (fun a i => { i with column := a }) ]

/-- Read an issue. -/
def ofJson (v : Json) : Except Fault Issue := Json.format.readRecord "Issue" false fields default v

/-- Read a list of issues. -/
def listOfJson (v : Json) : Except Fault (List Issue) := Json.format.readList ofJson v

/-- The members of the object for an issue, in the order in which they are written. -/
def members (i : Issue) : List (String × Json) :=
  [("file", .text i.file), ("featureId", .text i.featureId), ("name", .text i.name),
   ("status", .text i.status.label), ("priority", .text i.priority.name),
   ("line", .integer i.line.toNat), ("column", .integer i.column.toNat)]

/-- The object for an issue. -/
def toJson (i : Issue) : Json := .object i.members

end Issue

end WebBaseline
