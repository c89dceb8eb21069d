import WebBaseline.Json.Value
import WebBaseline.Decoding.Record

/-!
# Reading records from JSON values

A record is an object, or an array of its fields in their order.  A choice is
its name, or an object with the name as its only key and no value.
-/

namespace WebBaseline.Json

open WebBaseline.Decoding

/-- What a message says was found. -/
def found : Json → Found
  | null => .nothing
  | bool b => .bool b
  | integer i => .integer i
  | double d => .double d.jsonText
  | text s => .text s
  | array _ => .list
  | object _ => .map

/-- A value of another type was expected. -/
def wrongType {α : Type} (expected : String) (v : Json) : Except Fault α :=
  .error (.wrongType v.found expected)

/-- A natural number below a bound. -/
def readNatural (bound : Nat) (typeName : String) : Json → Except Fault Nat
  | integer i =>
    if 0 ≤ i ∧ i < bound then .ok i.toNat
    else .error (.wrongValue (.integer i) typeName)
  | v => wrongType typeName v

/-- A signed integer of 64 bits. -/
def readInteger : Json → Except Fault Int
  | integer i => if i < Bound.signed64 then .ok i else .error (.wrongValue (.integer i) "i64")
  | v => wrongType "i64" v

/-- A text. -/
def readText (expected : String) : Json → Except Fault String
  | text s => .ok s
  | v => wrongType expected v

/-- A truth value. -/
def readBoolean : Json → Except Fault Bool
  | bool b => .ok b
  | v => wrongType "a boolean" v

/-- The items of an array. -/
def readArray : Json → Except Fault (List Json)
  | array items => .ok items
  | v => wrongType "a sequence" v

/-- The members of an object, with their keys as values. -/
def keyedMembers (members : Members) : List (Json × Json) :=
  members.map fun m => (text m.1, m.2)

/-- The entries of an object. -/
def readEntries : Json → Except Fault (List (Json × Json))
  | object members => .ok (keyedMembers members)
  | v => wrongType "a map" v

/-- The fields of a record. -/
def readLayout (expected : String) : Json → Except Fault (Layout Json)
  | object members => .ok (.named (keyedMembers members))
  | array items => .ok (.positional items)
  | v => wrongType expected v

/-- One of several names. -/
def readName (names : List String) : Json → Except Fault String
  | text s => if names.contains s then .ok s else .error (.unknownChoice s names)
  | object [(key, v)] =>
    if !names.contains key then .error (.unknownChoice key names)
    else match v with
      | null => .ok key
      | v => wrongType "unit" v
  | object _ => .error (.wrongValue .map "map with a single key")
  | v => wrongType "string or map" v

/-- JSON as a format of records. -/
def format : Format Json Fault where
  fault _ f := f
  inField _ _ e := e
  inElement _ _ e := e
  isNothing v := match v with
    | null => .ok true
    | _ => .ok false
  natural := readNatural
  integer := readInteger
  text := readText
  boolean := readBoolean
  items := readArray
  entries := readEntries
  layout := readLayout
  choice := readName

/-- The wording of a fault of a JSON value. -/
def faultMessage (f : Fault) : String := f.message "null"

end WebBaseline.Json
