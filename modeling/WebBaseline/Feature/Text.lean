import WebBaseline.Feature.Record
import WebBaseline.Json.Reader

/-!
# Records from texts

A record may be read straight from a text.  A field that the text gives twice
is then a fault, fields that a record does not have are passed over, and every
fault comes with its place.
-/

namespace WebBaseline

open Decoding Json Json.Reader

/-- Why a text is no record. -/
inductive TextFault where
  | badSyntax (fault : SyntaxFault)
  | data (fault : Fault)
deriving DecidableEq, Repr

/-- A fault with its place. -/
structure TextError where
  fault : TextFault
  place : Place
deriving DecidableEq, Repr

/-- The wording of a fault with its place. -/
def TextError.message (e : TextError) : String :=
  (match e.fault with
    | .badSyntax f => f.message
    | .data f => faultMessage f) ++ " " ++ e.place.message

namespace RecordText

/-- A fault, with the number of bytes that come after its place. -/
structure Stop where
  fault : TextFault
  bytesAfter : Nat

/-- A fault of the text as such. -/
def ofSyntax {α : Type} : Except Reader.Stop α → Except Stop α
  | .ok a => .ok a
  | .error e => .error ⟨.badSyntax e.fault, e.bytesAfter⟩

/-- A fault of the data. -/
def fail {α : Type} (fault : Fault) (rest : List Char) : Except Stop α :=
  .error ⟨.data fault, byteCount rest⟩

/-- What may follow a list of values: the closing bracket, or a comma and a value. -/
def separator (first : Bool) (closing : Char) (endFault comma : SyntaxFault) (cs : List Char) :
    Except Reader.Stop (Option (List Char)) :=
  match skipBlanks cs with
  | [] => failAt endFault []
  | c :: rest =>
    if c = closing then .ok none
    else if first then .ok (some (c :: rest))
    else if c = ',' then
      match skipBlanks rest with
      | [] => failAt .endInValue []
      | d :: rest =>
        if d = closing then failOn .trailingComma (d :: rest) else .ok (some (d :: rest))
    else failOn comma (c :: rest)

/-- Read the members of an object. -/
def members (names : List String) (depth : Nat) :
    Nat → List (String × Json) → Bool → List Char → Except Stop (List (String × Json) × List Char)
  | 0, _, _, cs => ofSyntax (failAt .tooDeep cs)
  | fuel + 1, read, first, cs => do
    match ← ofSyntax (separator first '\x7d' .endInObject .expectedObjectComma cs) with
    | none => .ok (read.reverse, (skipBlanks cs).drop 1)
    | some ('\"' :: rest) =>
      let (key, afterKey) ← ofSyntax (quoted true (rest.length + 1) [] rest)
      if names.contains key && read.any (·.1 == key) then fail (.repeatedField key) afterKey
      else
        let cs ← match skipBlanks afterKey with
          | ':' :: rest => .ok rest
          | [] => ofSyntax (failAt .endInObject [])
          | rest => ofSyntax (failOn .expectedColon rest)
        let known := names.contains key
        let (v, rest) ← ofSyntax (value known (2 * cs.length + 2) depth cs)
        members names depth fuel (if known then (key, v) :: read else read) false rest
    | some rest => ofSyntax (failOn .keyMustBeText rest)

/-- Read the items of an array, `left` at most. -/
def items (depth : Nat) : Nat → List Json → Bool → List Char → Except Stop (List Json × List Char)
  | 0, read, _, cs =>
    match skipBlanks cs with
    | [] => ofSyntax (failAt .endInList [])
    | ']' :: rest => .ok (read.reverse, rest)
    | ',' :: rest =>
      match skipBlanks rest with
      | ']' :: rest => ofSyntax (failOn .trailingComma (']' :: rest))
      | rest => ofSyntax (failOn .trailingCharacters rest)
    | rest => ofSyntax (failOn .trailingCharacters rest)
  | left + 1, read, first, cs => do
    match ← ofSyntax (separator first ']' .endInList .expectedListComma cs) with
    | none => .ok (read.reverse, (skipBlanks cs).drop 1)
    | some cs =>
      let (v, rest) ← ofSyntax (value true (2 * cs.length + 2) depth cs)
      items depth left (v :: read) false rest

/-- Read a record. -/
def record (typeName : String) (names : List String) (cs : List Char) :
    Except Stop (Json × List Char) :=
  match skipBlanks cs with
  | '\x7b' :: rest => (members names (maxDepth - 1) (rest.length + 1) [] true rest).map
      fun r => (.ofMembers r.1, r.2)
  | '[' :: rest => (items (maxDepth - 1) names.length [] true rest).map
      fun r => (.array r.1, r.2)
  | cs => do
    let (v, rest) ← ofSyntax (value true (2 * cs.length + 2) maxDepth cs)
    fail (.wrongType v.found ("struct " ++ typeName)) rest

end RecordText

open RecordText in
/-- Read a record from a text. -/
def FeatureRecord.ofText (text : String) : Except TextError FeatureRecord :=
  let cs := text.toList
  let names := fields.map (·.name)
  let outcome : Except RecordText.Stop FeatureRecord := do
    let (v, rest) ← record "FeatureRecord" names cs
    match skipBlanks rest with
    | [] =>
      match FeatureRecord.ofJson v with
      | .ok r => .ok r
      | .error f => fail f []
    | rest => ofSyntax (failOn .trailingCharacters rest)
  match outcome with
  | .ok r => .ok r
  | .error e => .error ⟨e.fault, Place.after (byteCount cs - e.bytesAfter) cs⟩

end WebBaseline
