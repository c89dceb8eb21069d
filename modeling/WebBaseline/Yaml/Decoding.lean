import WebBaseline.Decoding.Record
import WebBaseline.Yaml.Document
import WebBaseline.Yaml.Plain

/-!
# Reading records from YAML

A record or a dictionary is a mapping, a list is a sequence, and all else is a
scalar.  A scalar in quotes is a text.  Tags of the core schema have to fit the
text of their scalars; other tags are ignored, except that the tag of a choice
is its name.  Errors carry the path and the place of the node.
-/

namespace WebBaseline.Yaml

open WebBaseline.Decoding

/-- The tags of the core schema with words for what they stand for. -/
def coreTag (name : String) : String := "tag:yaml.org,2002:" ++ name

namespace Node

/-- The place of a node. -/
def mark? : Node → Option Mark
  | scalar m .. | sequence m .. | mapping m .. => some m
  | void | reference _ | broken _ => none

/-- The node itself, or the one that a reference means. -/
def target (references : List (Nat × Node)) : Node → Node
  | reference r => (references.lookup r).getD .void
  | n => n

/-- What the text of a scalar stands for under its tag; a tag may demand another text. -/
def meaning (tag : Option String) (style : Style) (text : String) : Except Fault Found :=
  let demand (fits : Option Found) (word : String) : Except Fault Found :=
    match fits with
    | some f => .ok f
    | none => .error (.wrongValue (.text text) word)
  match tag with
  | none => .ok (if style == .plain then Plain.found text else .text text)
  | some t =>
    if t == coreTag "bool" then demand ((Plain.boolean? text).map .bool) "a boolean"
    else if t == coreTag "int" then
      demand ((Plain.integer? text).bind Plain.foundInteger?) "an integer"
    else if t == coreTag "float" then demand ((Plain.double? text).map .double) "a float"
    else if t == coreTag "null" then
      demand (if Plain.isNull text then some .nothing else none) "null"
    else .ok (if t.startsWith "!" && style == .plain then Plain.found text else .text text)

/-- The error of a node where something else is expected. -/
def mismatch (expected : String) (n : Node) : Error :=
  let because (f : Fault) : Error := .fault [] n.mark? f
  match n with
  | scalar _ tag style text =>
    match meaning tag style text with
    | .ok f => because (.wrongType f expected)
    | .error f => because f
  | sequence .. => because (.wrongType .list expected)
  | mapping .. => because (.wrongType .map expected)
  | void | reference _ => because (.wrongType .nothing expected)
  | broken e => e

/-- Whether a scalar can be a value of a type: it is plain, or literal with the tag of the type. -/
def isScalarOf (typeTag : String) (tag : Option String) (style : Style) : Bool :=
  style == .plain || (style == .literal && tag == some (coreTag typeTag))

/-- Whether a scalar is plain and empty. -/
def isEmptyScalar : Node → Bool
  | scalar _ _ style text => style == .plain && text.isEmpty
  | _ => false

/-- A natural number below a bound. -/
def readNatural (bound : Nat) (typeName : String) (n : Node) : Except Error Nat :=
  match n with
  | scalar mark tag style text =>
    match if isScalarOf "int" tag style then Plain.integer? text else none with
    | some (false, value) =>
      if value < bound then .ok value
      else if value < Bound.unsigned64 then
        .error (.fault [] mark (.wrongValue (.integer value) typeName))
      else .error (n.mismatch typeName)
    | _ => .error (n.mismatch typeName)
  | _ => .error (n.mismatch typeName)

/-- A signed integer of 64 bits. -/
def readInteger (n : Node) : Except Error Int :=
  match n with
  | scalar _ tag style text =>
    match if isScalarOf "int" tag style then Plain.integer? text else none with
    | some (negative, value) =>
      let i : Int := if negative then -value else value
      if -Bound.signed64 ≤ i ∧ i < Bound.signed64 then .ok i else .error (n.mismatch "i64")
    | none => .error (n.mismatch "i64")
  | _ => .error (n.mismatch "i64")

/-- A text.  Every scalar is one. -/
def readText (expected : String) (n : Node) : Except Error String :=
  match n with
  | scalar _ _ _ text => .ok text
  | _ => .error (n.mismatch expected)

/-- A truth value. -/
def readBoolean (n : Node) : Except Error Bool :=
  match n with
  | scalar _ tag style text =>
    match if isScalarOf "bool" tag style then Plain.boolean? text else none with
    | some b => .ok b
    | none => .error (n.mismatch "a boolean")
  | _ => .error (n.mismatch "a boolean")

/-- The items of a sequence.  An empty scalar is an empty sequence. -/
def readSequence (n : Node) : Except Error (List Node) :=
  match n with
  | sequence _ _ items => .ok items
  | void => .ok []
  | n => if n.isEmptyScalar then .ok [] else .error (n.mismatch "a sequence")

/-- The entries of a mapping.  An empty scalar is an empty mapping. -/
def readMapping (expected : String) (n : Node) : Except Error (List (Node × Node)) :=
  match n with
  | mapping _ _ entries => .ok entries
  | void => .ok []
  | n => if n.isEmptyScalar then .ok [] else .error (n.mismatch expected)

/-- Whether a node that may be left out stands for nothing. -/
def readNothing : Node → Except Error Bool
  | scalar _ tag style text =>
    if style != .plain then .ok false
    else match tag with
      | none => .ok (text.isEmpty || Plain.isNull text)
      | some t =>
        if t != coreTag "null" then .ok false
        else if Plain.isNull text then .ok true
        else .error (.fault [] none (.wrongValue (.text text) "null"))
  | void => .ok true
  | sequence .. | mapping .. | reference _ => .ok false
  | broken e => .error e

/-- The name of a tag of one's own. -/
def ownTag? : Option String → Option String
  | none => none
  | some t => if t.startsWith "!" then some (String.ofList (t.toList.drop 1)) else none

/-- Check that a node whose tag names a choice stands for nothing else. -/
def checkUnit (n : Node) : Except Error Unit :=
  match n with
  | scalar mark _ style text =>
    if style == .plain && (text.isEmpty || Plain.isNull text) then .ok ()
    else .error (.fault [] mark (.wrongValue (.text text) "null"))
  | n => .error (n.mismatch "unit")

/-- One of several names: a text, or a tag without anything else. -/
def readName (names : List String) (n : Node) : Except Error String :=
  let tagged (tag : Option String) (untagged : Except Error String) : Except Error String :=
    match ownTag? tag with
    | none => untagged
    | some name =>
      if names.contains name then (checkUnit n).map fun _ => name
      else .error (.fault [] none (.unknownChoice name names))
  match n with
  | scalar mark tag _ text =>
    tagged tag
      (if names.contains text then .ok text
        else .error (.fault [] mark (.unknownChoice text names)))
  | sequence _ tag _ | mapping _ tag _ =>
    tagged tag (.error (n.mismatch "a YAML tag starting with \x27!\x27"))
  | n => .error (n.mismatch "a YAML tag starting with \x27!\x27")

/-- The step to the value of a key. -/
def segment : Node → Segment
  | scalar _ _ _ name => .key name
  | _ => .otherKey

end Node

namespace Error

/-- The error of a node as seen from the collection around it.  An error without a place gets
that of the collection. -/
def within (collection : Node) (step : Segment) : Error → Error
  | fault _ none f => .fault [] collection.mark? f
  | fault path place f => .fault (step :: path) place f
  | e => e

end Error

/-- YAML as a format of records. -/
def format (references : List (Nat × Node)) : Format Node Error where
  fault n f := .fault [] (n.target references).mark? f
  inField n key e := e.within (n.target references) key.segment
  inElement n i e := e.within (n.target references) (.element i)
  isNothing n := (n.target references).readNothing
  natural bound typeName n := (n.target references).readNatural bound typeName
  integer n := (n.target references).readInteger
  text expected n := (n.target references).readText expected
  boolean n := (n.target references).readBoolean
  items n := (n.target references).readSequence
  entries n := (n.target references).readMapping "a map"
  layout expected n := ((n.target references).readMapping expected).map .named
  choice names n := (n.target references).readName names

/-- Read a value from the first document of a text, which has to be the only one. -/
def Document.read {α : Type} (readRoot : Format Node Error → Node → Except Error α)
    (d : Document) : Except Error α := do
  let value ← readRoot (format d.references) d.root
  match d.failure with
  | some e => throw e
  | none => if d.continued then throw .manyDocuments else return value

end WebBaseline.Yaml
