import WebBaseline.Parsing.Language
import WebBaseline.SyntaxTree

/-!
# Subtrees under construction

While a text is parsed, trees still hold hidden nodes, and every node knows
its size, the space before it, and what its errors cost.  The costs decide
between competing repairs: skipping text costs by the character, the line and
the node, inserting a missing token has a fixed price, and each place of
recovery has one too.  `Subtree.toSyntaxTree` drops hidden nodes and applies
aliases.
-/

namespace WebBaseline.Parsing

open WebBaseline.Grammar WebBaseline.Text

/-- What a node stands for. -/
inductive Label where
  | token (id : Nat)
  | variable (index : Nat)
  /-- A damaged region. -/
  | error
  /-- A run of skipped tokens that is not closed yet. -/
  | skipped
deriving BEq, DecidableEq, Inhabited

/-- Whether the label marks damaged text. -/
def Label.isDamage : Label → Bool
  | .error | .skipped => true
  | _ => false

namespace Cost

/-- The price of one place of recovery. -/
def recovery : Nat := 500
/-- The price of a missing token. -/
def missing : Nat := 110
/-- The price of a skipped node. -/
def skippedNode : Nat := 100
/-- The price of a skipped byte. -/
def skippedByte : Nat := 1
/-- The price of a skipped line break. -/
def skippedLine : Nat := 30

end Cost

/-- What is known of a node apart from its children. -/
structure Info (σ : Type) where
  label : Label
  /-- The space before the node. -/
  padding : Extent := {}
  size : Extent := {}
  extra : Bool := false
  missing : Bool := false
  cost : Nat := 0
  /-- Whether the node itself shows in trees. -/
  shown : Bool := false
  /-- How many of its descendants show. -/
  shownBelow : Nat := 0
  /-- How many nodes show directly below it. -/
  shownChildren : Nat := 0
  aliasing : Nat := 0
  /-- The token was read by hand, and left this state. -/
  external : Option (Option σ) := none
  /-- Reading the token changed the state. -/
  changesState : Bool := false
deriving Inhabited

/-- A node with its children. -/
inductive Subtree (σ : Type) where
  | node (info : Info σ) (children : List (Subtree σ))

namespace Subtree

variable {σ : Type}

instance : Inhabited (Subtree σ) := ⟨.node { label := .error } []⟩

/-- What is known of the node. -/
def info : Subtree σ → Info σ
  | node i _ => i

/-- The nodes directly below. -/
def children : Subtree σ → List (Subtree σ)
  | node _ cs => cs

/-- What the errors of the node cost. -/
def cost (t : Subtree σ) : Nat :=
  if t.info.missing then Cost.missing + Cost.recovery else t.info.cost

/-- The size with the space before it. -/
def total (t : Subtree σ) : Extent := t.info.padding + t.info.size

/-- The same node, extra or not. -/
def withExtra (extra : Bool) : Subtree σ → Subtree σ
  | node i cs => node { i with extra } cs

/-- How much a node adds to the measure of progress. -/
def progress (t : Subtree σ) : Nat :=
  t.info.shownBelow + (if t.info.shown then 1 else 0) + (if t.info.label == .skipped then 1 else 0)

/-- The state that a hand-read token left, if it is one and the language keeps a state. -/
def leftState (t : Subtree σ) : Option σ := t.info.external.join

variable (l : Language σ)

/-- Whether a label shows in trees. -/
def labelShown : Label → Bool
  | .token 0 => false
  | .token id => (l.appearance (l.symbolOf id)).2
  | .variable i => (l.appearance (.variable i)).2
  | .error => true
  | .skipped => false

/-- A token. -/
def leaf (label : Label) (padding size : Extent) : Subtree σ :=
  .node { label, padding, size, extra := label == .token 0, shown := labelShown l label } []

/-- Add a child to the account of its parent.  `aliases` are those of the steps
that are left; extras take no step. -/
def account (acc : Info σ × List (Option Alias) × Bool) (child : Subtree σ) :
    Info σ × List (Option Alias) × Bool :=
  let (p, aliases, first) := acc
  let c := child.info
  let skippedCost :=
    if p.label.isDamage && !c.extra && !(c.label == .error && child.children.isEmpty) then
      if c.shown then Cost.skippedNode
      else if child.children.isEmpty then 0
      else Cost.skippedNode * c.shownChildren
    else 0
  let ownCost := if c.label == .skipped then 0 else child.cost
  let aliased := !c.extra && c.label != .token 0 && (aliases.head?.join).isSome
  let directly :=
    if aliased || c.shown then 1
    else if child.children.isEmpty then 0 else c.shownChildren
  let p := { p with
    padding := if first then c.padding else p.padding
    size := if first then c.size else p.size + child.total
    cost := p.cost + ownCost + skippedCost
    shownBelow := p.shownBelow + c.shownBelow + (if aliased || c.shown then 1 else 0)
    shownChildren := p.shownChildren + directly
    changesState := p.changesState || c.changesState }
  (p, if c.extra then aliases else aliases.drop 1, false)

/-- A node over children. -/
def make (label : Label) (aliasing : Nat) (extra : Bool) (children : List (Subtree σ)) :
    Subtree σ :=
  let start : Info σ := { label, extra, aliasing, shown := labelShown l label }
  let (p, _, _) := children.foldl account (start, l.aliasing aliasing, true)
  let own := if label.isDamage then
      Cost.recovery + Cost.skippedByte * p.size.bytes + Cost.skippedLine * p.size.rows
    else 0
  .node { p with cost := p.cost + own } children

/-- The trailing extras of a list of nodes, and what comes before them. -/
def splitExtras (children : List (Subtree σ)) : List (Subtree σ) × List (Subtree σ) :=
  let trailing := (children.reverse.takeWhile (·.info.extra)).reverse
  (children.take (children.length - trailing.length), trailing)

/-- An order number for labels: tokens, then variables, then damage. -/
def rank : Label → Nat × Nat
  | .token i => (0, i)
  | .variable i => (1, i)
  | .error => (2, 0)
  | .skipped => (2, 1)

mutual

/-- Compare two trees by their labels in preorder. -/
def compareTrees : Subtree σ → Subtree σ → Ordering
  | node i cs, node j ds =>
    let (a, b) := rank i.label
    let (c, d) := rank j.label
    (compare a c).then <| (compare b d).then <|
      (compare cs.length ds.length).then <| compareLists cs ds

/-- Compare two lists of trees of equal length. -/
def compareLists : List (Subtree σ) → List (Subtree σ) → Ordering
  | x :: xs, y :: ys => (compareTrees x y).then (compareLists xs ys)
  | _, _ => .eq

end

/-- Whether the second of two readings of a text replaces the first. -/
def replaces (old new : Subtree σ) : Bool :=
  if new.cost < old.cost then true
  else if old.cost < new.cost then false
  else if 0 < old.cost then true
  else compareTrees old new == .gt

/-- Whether two nodes of one text are interchangeable. -/
def equivalent [BEq σ] : Option (Subtree σ) → Option (Subtree σ) → Bool
  | none, none => true
  | some s, some t =>
    s.info.label == t.info.label &&
      ((0 < s.cost && 0 < t.cost) ||
        (s.info.padding.bytes == t.info.padding.bytes && s.info.size.bytes == t.info.size.bytes &&
          s.children.length == t.children.length && s.info.extra == t.info.extra &&
          s.leftState == t.leftState))
  | _, _ => false

/-- The kind of a label's nodes. -/
def labelKind : Label → String
  | .token 0 => "end"
  | .token id => (l.appearance (l.symbolOf id)).1
  | .variable i => (l.appearance (.variable i)).1
  | .error => "ERROR"
  | .skipped => ""

mutual

/-- The node of a tree, shown as the given kind, when it starts at a position. -/
def toSyntaxTree (kind : String) (place : Extent) : Subtree σ → SyntaxTree
  | node i cs =>
    .node kind place.bytes (place + i.size).bytes ⟨place.rows, place.column⟩
      (shownNodes (l.aliasing i.aliasing) true place cs)

/-- The nodes that show in a list of children, the first of which starts at the
given position and the others after their space. -/
def shownNodes (aliases : List (Option Alias)) (first : Bool) (place : Extent) :
    List (Subtree σ) → List SyntaxTree
  | [] => []
  | node i cs :: rest =>
    let start := if first then place else place + i.padding
    let own := if i.extra then none else aliases.head?.join
    let shown := match own with
      | some a => [toSyntaxTree a.name start (node i cs)]
      | none =>
        if i.shown then [toSyntaxTree (labelKind l i.label) start (node i cs)]
        else shownNodes (l.aliasing i.aliasing) true start cs
    shown ++ shownNodes (if i.extra then aliases else aliases.drop 1) false (start + i.size) rest

end

end Subtree

end WebBaseline.Parsing
