import WebBaseline.Decoding.Fault
import WebBaseline.Yaml.Token

/-!
# Nodes of YAML

A node is a scalar, a sequence, a mapping, or a reference to a node with an
anchor.  What stands before an error in a text can still be used, so a node
may also say that the text breaks off there.

`Draft` builds a node from its parts in the order of the text: it holds the
collections that are still open, innermost first.
-/

namespace WebBaseline.Yaml

open Decoding (Fault)

/-- A step from a node to one inside it. -/
inductive Segment where
  | key (name : String)
  /-- A key that is no scalar. -/
  | otherKey
  | element (index : Nat)
deriving DecidableEq, Repr

/-- Why a text or a value is refused. -/
inductive Error where
  | malformed (error : SyntaxError)
  /-- A character that no text may hold, after some bytes. -/
  | control (offset : Nat)
  | unknownAnchor (place : Mark)
  | manyDocuments
  /-- A fault of a value.  Its place is found by the first collection around it that has one. -/
  | fault (path : List Segment) (place : Option Mark) (fault : Fault)
deriving DecidableEq, Repr

namespace Error

/-- The text of a step, after the text of the steps before it. -/
def extend : Option String → Segment → String
  | none, .key name => name
  | none, .otherKey => "?"
  | none, .element i => ".[" ++ toString i ++ "]"
  | some path, .key name => path ++ "." ++ name
  | some path, .otherKey => path ++ ".?"
  | some path, .element i => path ++ "[" ++ toString i ++ "]"

/-- The text of a path; the outermost node has none. -/
def pathText (path : List Segment) : Option String :=
  path.foldl (fun text s => some (extend text s)) none

/-- The wording of an error. -/
def message : Error → String
  | malformed e => e.message
  | control 0 => "control characters are not allowed"
  | control n => "control characters are not allowed at position " ++ toString n
  | unknownAnchor place => "unknown anchor" ++ place.suffix
  | manyDocuments => "deserializing from YAML containing more than one document is not supported"
  | fault path place f =>
    (match pathText path with
      | none => ""
      | some text => text ++ ": ") ++
      f.message "unit value" ++ (place.map Mark.suffix).getD ""

end Error

/-- A node. -/
inductive Node where
  /-- A text without a document has nothing as its node. -/
  | void
  | scalar (mark : Mark) (tag : Option String) (style : Style) (text : String)
  | sequence (mark : Mark) (tag : Option String) (items : List Node)
  | mapping (mark : Mark) (tag : Option String) (entries : List (Node × Node))
  | reference (anchor : Nat)
  /-- The text breaks off where the node should be. -/
  | broken (error : Error)
deriving Inhabited

/-- What a node starts with. -/
structure Head where
  mark : Mark
  tag : Option String := none
  /-- The number of the anchor among those of the text. -/
  anchor : Option Nat := none

/-- A collection that is still open, with its parts in reverse. -/
inductive Opened where
  | sequence (head : Head) (items : List Node)
  | mapping (head : Head) (entries : List (Node × Node)) (key : Option Node)

namespace Opened

/-- What the collection starts with. -/
def head : Opened → Head
  | sequence head _ => head
  | mapping head _ _ => head

/-- Add a node, in a mapping a key or the value of the last key. -/
def add (node : Node) : Opened → Opened
  | sequence head items => .sequence head (node :: items)
  | mapping head entries none => .mapping head entries (some node)
  | mapping head entries (some key) => .mapping head ((key, node) :: entries) none

/-- The collection, which ends here.  A key without a value stands for nothing. -/
def close : Opened → Node
  | sequence head items => .sequence head.mark head.tag items.reverse
  | mapping head entries none => .mapping head.mark head.tag entries.reverse
  | mapping head entries (some key) => .mapping head.mark head.tag ((key, .void) :: entries).reverse

/-- The collection, in which the text breaks off. -/
def breakOff (error : Error) : Opened → Opened
  | sequence head items => .sequence head (.broken error :: items)
  | mapping head entries key =>
    .mapping head ((key.getD (.broken error), .broken error) :: entries) none

end Opened

/-- A node under construction. -/
structure Draft where
  opened : List Opened := []
  root : Option Node := none
  /-- The names of anchors with what references to them are called, latest first. -/
  names : List (String × Nat) := []
  /-- What references to anchors are called, by the anchors, latest first. -/
  anchors : List Nat := []
  /-- Nodes with anchors, by the numbers of these. -/
  nodes : List (Nat × Node) := []

namespace Draft

/-- Name the node that starts here.  References to it are called by the number of names that
are known before, so a name that is taken again shares its number with the next new name. -/
def nameAnchor (name : String) (d : Draft) : Draft :=
  let called := d.names.length
  { d with names := (name, called) :: d.names.filter (·.1 != name)
           anchors := called :: d.anchors }

/-- What references to a name are called. -/
def called? (name : String) (d : Draft) : Option Nat := d.names.lookup name

/-- Add a complete node. -/
def add (anchor : Option Nat) (node : Node) (d : Draft) : Draft :=
  let nodes := match anchor with
    | some a => (a, node) :: d.nodes
    | none => d.nodes
  match d.opened with
  | [] => { d with root := some node, nodes }
  | o :: rest => { d with opened := o.add node :: rest, nodes }

/-- Start a collection. -/
def start (o : Opened) (d : Draft) : Draft := { d with opened := o :: d.opened }

/-- End the innermost collection. -/
def close (d : Draft) : Draft :=
  match d.opened with
  | [] => d
  | o :: rest => add o.head.anchor o.close { d with opened := rest }

/-- End all collections, since the text breaks off. -/
def breakOff (error : Error) (d : Draft) : Draft :=
  match d.opened with
  | [] => if d.root.isSome then d else { d with root := some (.broken error) }
  | o :: rest =>
    (o :: rest).foldl (fun d _ => d.close) { d with opened := o.breakOff error :: rest }

/-- The nodes that references mean, by what these are called.  Of the anchors with one such
number the latest counts. -/
def references (d : Draft) : List (Nat × Node) :=
  (d.anchors.zip (List.range d.anchors.length).reverse).filterMap fun (called, anchor) =>
    (d.nodes.lookup anchor).map (called, ·)

end Draft

end WebBaseline.Yaml
