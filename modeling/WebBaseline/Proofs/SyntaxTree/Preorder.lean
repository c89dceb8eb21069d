import WebBaseline.SyntaxTree

/-!
# Nodes and the nodes below them

The nodes of a tree are its root and then the nodes of its children, one child
after the other, whatever the kinds of nodes are.  What is gathered from the
nodes of a tree is gathered in the same way.

* `induction_on_children` — what holds of a node if it holds of its children, holds of every tree;
* `preorder_eq`, `mem_preorder_iff` — the nodes of a tree, by its children;
* `mem_preorder_trans` — a node below a node of a tree is one of the tree;
* `visit_singleton`, `mem_descendants` — what is found from the root.
-/

namespace WebBaseline.SyntaxTree

variable {tree node : SyntaxTree}

@[elab_as_elim]
theorem induction_on_children {motive : SyntaxTree → Prop}
    (step : ∀ tree : SyntaxTree, (∀ child ∈ tree.children, motive child) → motive tree) :
    ∀ tree, motive tree
  | node k s e p cs =>
      step (node k s e p cs) fun child (_ : child ∈ cs) => induction_on_children step child

theorem preorderAll_eq_flatMap (trees : List SyntaxTree) :
    preorderAll trees = trees.flatMap preorder := by
  induction trees with
  | nil => rfl
  | cons tree rest ih => rw [preorderAll, List.flatMap_cons, ih]

/-- **The nodes of a tree**, by its children. -/
theorem preorder_eq (tree : SyntaxTree) :
    tree.preorder = tree :: tree.children.flatMap preorder := by
  cases tree with
  | node k s e p cs => rw [preorder, preorderAll_eq_flatMap, children]

theorem mem_preorder_iff :
    node ∈ tree.preorder ↔ node = tree ∨ ∃ child ∈ tree.children, node ∈ child.preorder := by
  rw [preorder_eq, List.mem_cons, List.mem_flatMap]

theorem self_mem_preorder (tree : SyntaxTree) : tree ∈ tree.preorder :=
  mem_preorder_iff.mpr (Or.inl rfl)

/-- A node below a node of a tree is one of the tree. -/
theorem mem_preorder_trans {inner : SyntaxTree} (hinner : inner ∈ tree.preorder)
    (hnode : node ∈ inner.preorder) : node ∈ tree.preorder := by
  induction tree using induction_on_children with
  | step tree ih =>
      rcases mem_preorder_iff.mp hinner with rfl | ⟨child, hchild, hbelow⟩
      · exact hnode
      · exact mem_preorder_iff.mpr (Or.inr ⟨child, hchild, ih child hchild hbelow⟩)

/-- From a single tree all its nodes are visited. -/
theorem visit_singleton (tree : SyntaxTree) : visit [tree] = tree.preorder := by
  rw [visit_eq_preorderAll, preorderAll, preorderAll, List.append_nil]

/-- The nodes of a kind. -/
theorem mem_descendants {kind : String} :
    node ∈ tree.descendants kind ↔ node ∈ tree.preorder ∧ node.kind = kind := by
  rw [descendants, visit_singleton, List.mem_filter, beq_iff_eq]

end WebBaseline.SyntaxTree
