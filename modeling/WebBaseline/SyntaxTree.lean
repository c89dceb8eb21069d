/-!
# Syntax trees

A node has a kind, the byte range of its text, the point where it starts and
its children in the order of the text.  `SyntaxTree.preorder` lists a node
before its children; `SyntaxTree.visit` finds the same list with an explicit
stack, and `visit_eq_preorder` says that the two agree.
-/

namespace WebBaseline

/-- A place in a text: a row and a byte column, both counted from zero. -/
structure Point where
  row : Nat
  column : Nat
deriving BEq, DecidableEq, Inhabited, Repr

/-- A node of a syntax tree. -/
inductive SyntaxTree where
  | node (kind : String) (start stop : Nat) (point : Point) (children : List SyntaxTree)
deriving Inhabited

namespace SyntaxTree

/-- What the node is. -/
def kind : SyntaxTree → String
  | node k _ _ _ _ => k

/-- The byte at which the text of the node starts. -/
def start : SyntaxTree → Nat
  | node _ s _ _ _ => s

/-- The byte after the text of the node. -/
def stop : SyntaxTree → Nat
  | node _ _ e _ _ => e

/-- The place at which the text of the node starts. -/
def point : SyntaxTree → Point
  | node _ _ _ p _ => p

/-- The children, in the order of the text. -/
def children : SyntaxTree → List SyntaxTree
  | node _ _ _ _ cs => cs

mutual

/-- The node and all its descendants, each before its children. -/
def preorder : SyntaxTree → List SyntaxTree
  | node k s e p cs => node k s e p cs :: preorderAll cs

/-- The nodes of a list of trees, one tree after the other. -/
def preorderAll : List SyntaxTree → List SyntaxTree
  | [] => []
  | t :: rest => preorder t ++ preorderAll rest

end

mutual

/-- The number of nodes. -/
def size : SyntaxTree → Nat
  | node _ _ _ _ cs => 1 + sizeAll cs

/-- The number of nodes in a list of trees. -/
def sizeAll : List SyntaxTree → Nat
  | [] => 0
  | t :: rest => size t + sizeAll rest

end

@[simp] theorem sizeAll_append (xs ys : List SyntaxTree) :
    sizeAll (xs ++ ys) = sizeAll xs + sizeAll ys := by
  induction xs with
  | nil => simp [sizeAll]
  | cons t rest ih => simp [sizeAll, ih, Nat.add_assoc]

theorem size_pos (t : SyntaxTree) : 0 < size t := by
  cases t
  simp only [size]
  omega

/-- The nodes below a stack of trees, found by taking the top tree and putting
its children in its place.  The number of pending nodes shrinks at every step. -/
def visit : List SyntaxTree → List SyntaxTree
  | [] => []
  | node k s e p cs :: stack => node k s e p cs :: visit (cs ++ stack)
termination_by stack => sizeAll stack
decreasing_by simp [sizeAll, size]

@[simp] theorem preorderAll_append (xs ys : List SyntaxTree) :
    preorderAll (xs ++ ys) = preorderAll xs ++ preorderAll ys := by
  induction xs with
  | nil => simp [preorderAll]
  | cons t rest ih => simp [preorderAll, ih]

/-- The stack loop visits the trees on its stack in preorder. -/
theorem visit_eq_preorderAll (stack : List SyntaxTree) : visit stack = preorderAll stack := by
  fun_induction visit with
  | case1 => rfl
  | case2 k s e p cs stack ih => simp [ih, preorderAll, preorder]

/-- The first child of a kind. -/
def child? (t : SyntaxTree) (kind : String) : Option SyntaxTree :=
  t.children.find? (·.kind == kind)

/-- All nodes of a kind, the tree itself included, in the order of the text. -/
def descendants (t : SyntaxTree) (kind : String) : List SyntaxTree :=
  (visit [t]).filter (·.kind == kind)

/-- The text of a node: empty when its range does not cut the source between characters. -/
def text (t : SyntaxTree) (source : String) : String :=
  let start : String.Pos.Raw := ⟨t.start⟩
  let stop : String.Pos.Raw := ⟨t.stop⟩
  if t.start ≤ t.stop && start.isValid source && stop.isValid source then
    String.Pos.Raw.extract source start stop
  else ""

end SyntaxTree

end WebBaseline
