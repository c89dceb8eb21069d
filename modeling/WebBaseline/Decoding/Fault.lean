import WebBaseline.Text.Quoted

/-!
# Faults of structured data

A value that should become a record, a list or a scalar may be of the wrong
type, out of range, too short, or name a field or a choice that does not
exist.  `Fault.message` gives the wording; formats differ in what they call
nothing.
-/

namespace WebBaseline.Decoding

/-- What was found where something else was expected. -/
inductive Found where
  | nothing
  | bool (value : Bool)
  | integer (value : Int)
  /-- An integer that needs more than 64 bits, with the name of its type. -/
  | wide (value : Int) (typeName : String)
  /-- A number with a fraction, by its text. -/
  | double (text : String)
  | text (value : String)
  | list
  | map
deriving DecidableEq, Repr

/-- The wording of what was found. -/
def Found.message (nothingWord : String) : Found → String
  | nothing => nothingWord
  | bool true => "boolean `true`"
  | bool false => "boolean `false`"
  | integer i => "integer `" ++ toString i ++ "`"
  | wide i t => "integer `" ++ toString i ++ "` as " ++ t
  | double t => "floating point `" ++ t ++ "`"
  | text s => "string " ++ Text.quoteShown s
  | list => "sequence"
  | map => "map"

/-- What is wrong with a value. -/
inductive Fault where
  | wrongType (found : Found) (expected : String)
  | wrongValue (found : Found) (expected : String)
  | wrongLength (length : Nat) (expected : String)
  | unknownChoice (name : String) (allowed : List String)
  | unknownField (name : String) (allowed : List String)
  | missingField (name : String)
  | repeatedField (name : String)
deriving DecidableEq, Repr

/-- A list of names as alternatives. -/
def alternatives : List String → String
  | [] => ""
  | [a] => "`" ++ a ++ "`"
  | [a, b] => "`" ++ a ++ "` or `" ++ b ++ "`"
  | names => "one of " ++ ", ".intercalate (names.map fun n => "`" ++ n ++ "`")

/-- The wording of a fault. -/
def Fault.message (nothingWord : String) : Fault → String
  | wrongType f e => "invalid type: " ++ f.message nothingWord ++ ", expected " ++ e
  | wrongValue f e => "invalid value: " ++ f.message nothingWord ++ ", expected " ++ e
  | wrongLength n e => "invalid length " ++ toString n ++ ", expected " ++ e
  | unknownChoice n allowed => "unknown variant `" ++ n ++ "`, expected " ++ alternatives allowed
  | unknownField n allowed => "unknown field `" ++ n ++ "`, expected " ++ alternatives allowed
  | missingField n => "missing field `" ++ n ++ "`"
  | repeatedField n => "duplicate field `" ++ n ++ "`"

end WebBaseline.Decoding
