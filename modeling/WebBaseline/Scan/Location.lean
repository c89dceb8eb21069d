import WebBaseline.Json.Decoding
import WebBaseline.SyntaxTree

/-!
# Locations

A location is a line and a column, both counted from one; columns count bytes.
Both fit into 32 bits.
-/

namespace WebBaseline

/-! ### Numbers of 32 bits -/

namespace Word

/-- The greatest number. -/
def greatest : UInt32 := 0xFFFFFFFF

/-- A number less another one, or zero if that is greater. -/
def saturatingSub (a b : UInt32) : UInt32 := if a < b then 0 else a - b

/-- The sum of two numbers, or the greatest number if the sum is greater: one that
has wrapped around is less than its parts. -/
def saturatingAdd (a b : UInt32) : UInt32 :=
  let sum := a + b
  if sum < a then greatest else sum

end Word

/-! ### Lines and columns -/

/-- A place in a file, counted from one. -/
structure Location where
  line : UInt32
  column : UInt32
deriving DecidableEq, Repr, Inhabited

namespace Location

/-- The start of a file. -/
def start : Location := ⟨1, 1⟩

/-- The location of a point, which counts from zero. -/
def ofPoint (p : Point) : Location := ⟨UInt32.ofNat p.row + 1, UInt32.ofNat p.column + 1⟩

/-- Line and column counted from zero.  What lies before the start counts as the start. -/
def fromZero (l : Location) : UInt32 × UInt32 :=
  (Word.saturatingSub l.line 1, Word.saturatingSub l.column 1)

/-- Line and column counted from zero, as they are written. -/
def zeroBased (l : Location) : Nat × Nat := (l.fromZero.1.toNat, l.fromZero.2.toNat)

/-- Line and column with a colon between them. -/
def text (l : Location) : String := toString l.line.toNat ++ ":" ++ toString l.column.toNat

/-- Whether a location comes before another or equals it. -/
def le (a b : Location) : Bool :=
  a.line < b.line || (a.line == b.line && a.column ≤ b.column)

open Decoding

/-- Read a line or a column. -/
def readCount (v : Json) : Except Fault UInt32 :=
  (Json.format.natural UInt32.size "u32" v).map UInt32.ofNat

/-- The fields of a location. -/
def fields : List (Field Json Fault Location) :=
  [ .mandatory "line" readCount (fun a l => { l with line := a }),
    .mandatory "column" readCount (fun a l => { l with column := a }) ]

/-- Read a location. -/
def ofJson (v : Json) : Except Fault Location :=
  Json.format.readRecord "Location" false fields start v

/-- The object for a location. -/
def toJson (l : Location) : Json :=
  .ofMembers [("line", .integer l.line.toNat), ("column", .integer l.column.toNat)]

end Location

end WebBaseline
