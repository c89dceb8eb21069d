/-!
# Support status and priority

How widely a feature is supported, and how urgent its uses are.  A policy maps
every status to a priority; under the standard one gaps in support come first.
-/

namespace WebBaseline

/-- How widely browsers support a feature. -/
inductive Status where
  | widely
  | newly
  | limited
  | unknown
deriving DecidableEq, Repr, Inhabited

namespace Status

/-- All statuses in the order of reports. -/
def all : List Status := [widely, newly, limited, unknown]

/-- The label that users see. -/
def label : Status → String
  | widely => "widely available"
  | newly => "newly available"
  | limited => "limited availability"
  | unknown => "unknown"

/-- The names by which a status may be given: its label, and a short form before it. -/
def names : List (String × Status) :=
  [("widely", widely), ("widely available", widely), ("newly", newly),
   ("newly available", newly), ("limited", limited), ("limited availability", limited),
   ("unknown", unknown)]

/-- Whether uses of such features count towards the score. -/
def isAcceptable : Status → Bool
  | widely | newly => true
  | limited | unknown => false

/-- The status that a catalog's code stands for; unknown for any other code, or none. -/
def ofCode : Option String → Status
  | some code =>
    if code = "wide" then widely
    else if code = "newly" then newly
    else if code = "limited" then limited
    else unknown
  | none => unknown

theorem mem_all (s : Status) : s ∈ all := by
  cases s <;> decide

end Status

/-- How urgent a use is. -/
inductive Priority where
  | high
  | medium
  | low
deriving DecidableEq, Repr, Inhabited

namespace Priority

/-- All priorities, the most urgent first. -/
def all : List Priority := [high, medium, low]

/-- The name of a priority. -/
def name : Priority → String
  | high => "High"
  | medium => "Medium"
  | low => "Low"

/-- The names by which a priority may be given. -/
def names : List (String × Priority) := all.map fun p => (p.name, p)

theorem mem_all (p : Priority) : p ∈ all := by
  cases p <;> decide

end Priority

/-- The priority of every status.  The standard policy treats gaps in support as urgent. -/
structure PriorityPolicy where
  widely : Priority := .low
  newly : Priority := .medium
  limited : Priority := .high
  unknown : Priority := .low
deriving DecidableEq, Repr, Inhabited

namespace PriorityPolicy

/-- The standard policy. -/
def standard : PriorityPolicy := {}

/-- The priority of a status. -/
def priorityOf (p : PriorityPolicy) : Status → Priority
  | .widely => p.widely
  | .newly => p.newly
  | .limited => p.limited
  | .unknown => p.unknown

end PriorityPolicy

end WebBaseline
