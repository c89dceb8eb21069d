import Mathlib.Data.List.Lex
import WebBaseline.Proofs.SyntaxTree.Nesting

/-!
# The traversal as a loop

Trees are traversed by a loop with a stack: it takes the top tree, visits it and
puts its children on the stack, the last one first.  Nodes of a tree may be equal
to each other, so the nodes visited are told apart by their addresses, the numbers
of the children on the way down to them.

What was visited, followed by the nodes below the trees on the stack in preorder,
stays the same from turn to turn, and the number of the latter is one less after
each turn.

* `at?`, `Placed` — addresses, and nodes with their addresses;
* `placedNodes`, `descendants_eq` — the nodes of a tree, and those of a kind among them;
* `Placed.mem_preorder_iff`, `Placed.pairwise_preorder` — the nodes of a tree in preorder are those
  at its addresses, in lexicographic order;
* `Traversal.turn_eq_some_iff` — what a turn of the loop does;
* `Traversal.planned_turn`, `Traversal.pending_turn` — the invariant, and the measure that shrinks;
* `Traversal.visit_turn` — the turns are those that `visit` takes;
* `Traversal.turns_of_le`, `Traversal.turns_eq_none` — the loop after any number of turns;
* `Traversal.turns_start_size` — a traversal ends when all nodes of its tree were visited;
* `traversal_visits_preorder` — the traversals of all trees.
-/

namespace WebBaseline.SyntaxTree

/-! ### Addresses -/

/-- The node at an address. -/
def at? : SyntaxTree → List Nat → Option SyntaxTree
  | tree, [] => some tree
  | tree, i :: below => tree.children[i]?.bind fun child => child.at? below

/-- A node with its address. -/
structure Placed where
  address : List Nat
  tree : SyntaxTree

namespace Placed

mutual

/-- A tree at an address and all its descendants, each before its children. -/
def nodesOf : List Nat → SyntaxTree → List Placed
  | address, node k s e p cs => ⟨address, node k s e p cs⟩ :: nodesOfAll address 0 cs

/-- The nodes of some children of the node at an address, from the child with a number on. -/
def nodesOfAll : List Nat → Nat → List SyntaxTree → List Placed
  | _, _, [] => []
  | address, i, t :: rest => nodesOf (address ++ [i]) t ++ nodesOfAll address (i + 1) rest

end

/-- A node and all its descendants, each before its children. -/
def preorder (n : Placed) : List Placed := nodesOf n.address n.tree

/-- Some children of the node at an address, from the child with a number on. -/
def siblings (address : List Nat) : Nat → List SyntaxTree → List Placed
  | _, [] => []
  | i, t :: rest => ⟨address ++ [i], t⟩ :: siblings address (i + 1) rest

/-- The children of a node, from left to right. -/
def children (n : Placed) : List Placed := siblings n.address 0 n.tree.children

/-- Whether a node's address is before another one.  An address is before those it starts, and else
what counts is the first number in which the two differ. -/
def Before (a b : Placed) : Prop := List.Lex (· < ·) a.address b.address

theorem not_before_self (n : Placed) : ¬ n.Before n := List.lex_irrefl Nat.lt_irrefl n.address

/-! ### Children -/

section Siblings

variable {address : List Nat} {i : Nat} {trees : List SyntaxTree} {n m : Placed}

@[simp] theorem map_tree_siblings : (siblings address i trees).map tree = trees := by
  induction trees generalizing i with
  | nil => rfl
  | cons t rest ih => rw [siblings, List.map_cons, ih]

theorem nodesOfAll_eq_flatMap : nodesOfAll address i trees =
    (siblings address i trees).flatMap preorder := by
  induction trees generalizing i with
  | nil => rfl
  | cons t rest ih => rw [nodesOfAll, ih, siblings, List.flatMap_cons, preorder]

theorem mem_siblings_iff : n ∈ siblings address i trees ↔
    ∃ j, n.address = address ++ [i + j] ∧ trees[j]? = some n.tree := by
  induction trees generalizing i with
  | nil => simp [siblings]
  | cons t rest ih =>
      rw [siblings, List.mem_cons, ih]
      constructor
      · rintro (rfl | ⟨j, haddress, htree⟩)
        · exact ⟨0, rfl, rfl⟩
        · exact ⟨j + 1, by rw [haddress, Nat.add_assoc, Nat.add_comm 1], htree⟩
      · rintro ⟨j, haddress, htree⟩
        cases j with
        | zero =>
            obtain rfl : t = n.tree := Option.some.inj htree
            exact Or.inl (congrArg (Placed.mk · n.tree) haddress)
        | succ j => exact Or.inr ⟨j, by rw [haddress, Nat.add_assoc, Nat.add_comm 1], htree⟩

/-- What is below a child is before what is below a child further to the right. -/
theorem pairwise_siblings : (siblings address i trees).Pairwise fun a b =>
    ∀ left right, List.Lex (· < ·) (a.address ++ left) (b.address ++ right) := by
  induction trees generalizing i with
  | nil => exact List.Pairwise.nil
  | cons t rest ih =>
      rw [siblings, List.pairwise_cons]
      refine ⟨fun b hb left right => ?_, ih⟩
      obtain ⟨j, haddress, -⟩ := mem_siblings_iff.mp hb
      rw [haddress, List.append_assoc, List.append_assoc]
      exact List.Lex.append_left _ (List.Lex.rel (by omega)) address

/-- The children of a node are at its address with one more number. -/
theorem mem_children_iff : m ∈ n.children ↔
    ∃ j, m.address = n.address ++ [j] ∧ n.tree.children[j]? = some m.tree := by
  rw [children, mem_siblings_iff]
  simp only [Nat.zero_add]

@[simp] theorem map_tree_children (n : Placed) : n.children.map tree = n.tree.children :=
  map_tree_siblings

end Siblings

/-! ### Preorder -/

/-- **Preorder.**  A node comes before its children, and these from left to right. -/
theorem preorder_eq (n : Placed) : n.preorder = n :: n.children.flatMap preorder := by
  obtain ⟨address, t⟩ := n
  cases t with
  | node k s e p cs =>
      rw [preorder, nodesOf, nodesOfAll_eq_flatMap]
      rfl

/-- What holds of a node if it holds of its children, holds of every node. -/
@[elab_as_elim]
theorem induction_on_placed_children {motive : Placed → Prop}
    (step : ∀ n : Placed, (∀ child ∈ n.children, motive child) → motive n) (n : Placed) :
    motive n := by
  obtain ⟨address, t⟩ := n
  induction t using induction_on_children generalizing address with
  | step t ih =>
      refine step ⟨address, t⟩ fun child hchild => ?_
      have htree : child.tree ∈ t.children := by
        rw [← map_tree_children ⟨address, t⟩]
        exact List.mem_map_of_mem hchild
      exact ih child.tree htree child.address

theorem map_tree_preorder (n : Placed) : n.preorder.map tree = n.tree.preorder := by
  induction n using induction_on_placed_children with
  | step n ih =>
      rw [preorder_eq, List.map_cons, List.map_flatMap, List.flatMap_congr ih,
        SyntaxTree.preorder_eq, ← map_tree_children, List.flatMap_map]

/-- **The nodes at addresses.**  The nodes in preorder are those found at the addresses below. -/
theorem mem_preorder_iff {n m : Placed} : m ∈ n.preorder ↔
    ∃ below, m.address = n.address ++ below ∧ n.tree.at? below = some m.tree := by
  induction n using induction_on_placed_children with
  | step n ih =>
      rw [preorder_eq, List.mem_cons, List.mem_flatMap]
      constructor
      · rintro (rfl | ⟨child, hchild, hmem⟩)
        · exact ⟨[], (List.append_nil _).symm, rfl⟩
        · obtain ⟨j, haddress, htree⟩ := mem_children_iff.mp hchild
          obtain ⟨below, hbelow, hat⟩ := (ih child hchild).mp hmem
          refine ⟨j :: below, ?_, ?_⟩
          · rw [hbelow, haddress, List.append_assoc, List.singleton_append]
          · rw [at?, htree, Option.bind_some, hat]
      · rintro ⟨below, haddress, hat⟩
        cases below with
        | nil =>
            obtain ⟨address, t⟩ := m
            obtain rfl : n.tree = t := Option.some.inj hat
            exact Or.inl (congrArg (Placed.mk · n.tree) (haddress.trans (List.append_nil _)))
        | cons j below =>
            rw [at?] at hat
            obtain ⟨t, htree, hat⟩ := Option.bind_eq_some_iff.mp hat
            have hchild : (⟨n.address ++ [j], t⟩ : Placed) ∈ n.children :=
              mem_children_iff.mpr ⟨j, rfl, htree⟩
            refine Or.inr ⟨_, hchild, (ih _ hchild).mpr ⟨below, ?_, hat⟩⟩
            rw [haddress, List.append_assoc, List.singleton_append]

/-- **The order of addresses.**  Nodes in preorder are in the order of their addresses. -/
theorem pairwise_preorder (n : Placed) : n.preorder.Pairwise Before := by
  induction n using induction_on_placed_children with
  | step n ih =>
      rw [preorder_eq, List.pairwise_cons, List.pairwise_flatMap]
      refine ⟨fun m hm => ?_, ih, pairwise_siblings.imp ?_⟩
      · obtain ⟨child, hchild, hmem⟩ := List.mem_flatMap.mp hm
        obtain ⟨j, hj, -⟩ := mem_children_iff.mp hchild
        obtain ⟨below, hbelow, -⟩ := mem_preorder_iff.mp hmem
        have hlonger := List.Lex.append_left (· < ·) (List.Lex.nil (a := j) (l := below)) n.address
        rwa [List.append_nil, ← List.singleton_append, ← List.append_assoc, ← hj, ← hbelow]
          at hlonger
      · intro a b hab x hx y hy
        obtain ⟨left, hleft, -⟩ := mem_preorder_iff.mp hx
        obtain ⟨right, hright, -⟩ := mem_preorder_iff.mp hy
        rw [Before, hleft, hright]
        exact hab left right

/-- No address occurs twice among the nodes in preorder. -/
theorem nodup_map_address_preorder (n : Placed) : (n.preorder.map address).Nodup := by
  rw [List.Nodup, List.pairwise_map]
  refine n.pairwise_preorder.imp fun {a b} hab hsame => ?_
  rw [Before, hsame] at hab
  exact b.not_before_self hab

end Placed

/-! ### From the root -/

/-- The nodes of a tree with their addresses, in preorder. -/
def placedNodes (t : SyntaxTree) : List Placed := Placed.preorder ⟨[], t⟩

theorem map_tree_placedNodes (t : SyntaxTree) : t.placedNodes.map Placed.tree = t.preorder :=
  Placed.map_tree_preorder ⟨[], t⟩

theorem mem_placedNodes_iff {t : SyntaxTree} {n : Placed} :
    n ∈ t.placedNodes ↔ t.at? n.address = some n.tree := by
  rw [placedNodes, Placed.mem_preorder_iff]
  simp only [List.nil_append, exists_eq_left']

/-- The nodes of a kind are found among all nodes, at their addresses. -/
theorem descendants_eq (t : SyntaxTree) (kind : String) :
    t.descendants kind = (t.placedNodes.filter (·.tree.kind == kind)).map Placed.tree := by
  rw [descendants, visit_singleton, ← map_tree_placedNodes, List.filter_map]
  rfl

/-- A tree of a kind is the first of the nodes of that kind. -/
theorem head?_filter_placedNodes {t : SyntaxTree} {kind : String} (hkind : t.kind = kind) :
    (t.placedNodes.filter (·.tree.kind == kind)).head? = some ⟨[], t⟩ := by
  rw [placedNodes, Placed.preorder_eq, List.filter_cons_of_pos (by simpa using hkind),
    List.head?_cons]

theorem size_eq (t : SyntaxTree) : t.size = 1 + sizeAll t.children := by
  cases t
  rw [size, children]

theorem visit_cons (t : SyntaxTree) (stack : List SyntaxTree) :
    visit (t :: stack) = t :: visit (t.children ++ stack) := by
  cases t
  rw [visit, children]

/-- As many nodes are visited as there are below the stack. -/
theorem length_visit (stack : List SyntaxTree) : (visit stack).length = sizeAll stack := by
  fun_induction visit with
  | case1 => rfl
  | case2 k s e p cs stack ih =>
      rw [List.length_cons, ih, sizeAll_append, sizeAll, size]
      omega

/-- The size of a tree is the number of its nodes. -/
theorem length_preorder (t : SyntaxTree) : t.preorder.length = t.size := by
  rw [← visit_singleton, length_visit, sizeAll, sizeAll, Nat.add_zero]

theorem length_placedNodes (t : SyntaxTree) : t.placedNodes.length = t.size := by
  rw [← length_preorder, ← map_tree_placedNodes, List.length_map]

/-! ### The loop -/

/-- The traversal between two turns of its loop. -/
structure Traversal where
  /-- The trees that are still to be visited, the next one first. -/
  stack : List Placed
  /-- The nodes that were visited, in their order. -/
  visited : List Placed

namespace Traversal

/-- The traversal of a tree before the first turn. -/
def start (t : SyntaxTree) : Traversal := ⟨[⟨[], t⟩], []⟩

/-- One turn of the loop; none if nothing is left to be visited.  The children of the tree that was
on top are put on the stack one by one, the last one first. -/
def turn : Traversal → Option Traversal
  | ⟨[], _⟩ => none
  | ⟨top :: rest, visited⟩ =>
    some ⟨top.children.reverse.foldl (fun stack child => child :: stack) rest, visited ++ [top]⟩

/-- Some turns of the loop; none if it ends before. -/
def turns : Nat → Traversal → Option Traversal
  | 0, s => some s
  | k + 1, s => s.turn.bind (turns k)

/-- The number of nodes that are still to be visited. -/
def pending (s : Traversal) : Nat := sizeAll (s.stack.map Placed.tree)

/-- The nodes that were visited and those that are still to be, in preorder. -/
def planned (s : Traversal) : List Placed := s.visited ++ s.stack.flatMap Placed.preorder

variable {s next : Traversal}

/-- **One turn.**  The children of the tree on top take its place. -/
theorem turn_eq_some_iff : s.turn = some next ↔
    ∃ top rest, s.stack = top :: rest ∧ next = ⟨top.children ++ rest, s.visited ++ [top]⟩ := by
  obtain ⟨stack, visited⟩ := s
  cases stack with
  | nil => simp [turn]
  | cons top rest =>
      rw [turn, Option.some_inj, List.foldl_reverse, List.foldr_cons_eq_append, List.map_id',
        eq_comm]
      simp

theorem turn_eq_none_iff : s.turn = none ↔ s.stack = [] := by
  obtain ⟨stack, visited⟩ := s
  cases stack <;> simp [turn]

theorem pending_eq_zero_iff : s.pending = 0 ↔ s.stack = [] := by
  obtain ⟨stack, visited⟩ := s
  cases stack with
  | nil => simp [pending, sizeAll]
  | cons top rest => simp [pending, sizeAll, top.tree.size_pos.ne']

/-- **The measure.**  A turn leaves one node less to be visited. -/
theorem pending_turn (h : s.turn = some next) : next.pending + 1 = s.pending := by
  obtain ⟨top, rest, hstack, rfl⟩ := turn_eq_some_iff.mp h
  rw [pending, pending, hstack, List.map_append, sizeAll_append, Placed.map_tree_children,
    List.map_cons, sizeAll, size_eq top.tree]
  omega

/-- **The invariant.**  A turn visits the node that is the next in preorder. -/
theorem planned_turn (h : s.turn = some next) : next.planned = s.planned := by
  obtain ⟨top, rest, hstack, rfl⟩ := turn_eq_some_iff.mp h
  rw [planned, planned, hstack, List.flatMap_append, List.flatMap_cons, Placed.preorder_eq top,
    List.append_assoc, List.singleton_append, List.cons_append]

/-- **The same loop.**  The nodes found below a stack of trees are the one that a turn visits, and
then those found after the turn. -/
theorem visit_turn (h : s.turn = some next) : ∃ top, next.visited = s.visited ++ [top] ∧
    visit (s.stack.map Placed.tree) = top.tree :: visit (next.stack.map Placed.tree) := by
  obtain ⟨top, rest, hstack, rfl⟩ := turn_eq_some_iff.mp h
  refine ⟨top, rfl, ?_⟩
  rw [hstack, List.map_cons, visit_cons, List.map_append, Placed.map_tree_children]

theorem length_visited_turn (h : s.turn = some next) :
    next.visited.length = s.visited.length + 1 := by
  obtain ⟨top, rest, -, rfl⟩ := turn_eq_some_iff.mp h
  rw [List.length_append, List.length_singleton]

/-- **The loop.**  It goes on as long as nodes are left, and each turn visits one of them. -/
theorem turns_of_le {k : Nat} (hk : k ≤ s.pending) : ∃ last, s.turns k = some last ∧
    last.planned = s.planned ∧ last.pending + k = s.pending ∧
    last.visited.length = s.visited.length + k := by
  induction k generalizing s with
  | zero => exact ⟨s, rfl, rfl, rfl, rfl⟩
  | succ k ih =>
      have hsome : s.turn ≠ none := by
        rw [Ne, turn_eq_none_iff, ← pending_eq_zero_iff]
        omega
      obtain ⟨next, hturn⟩ := Option.ne_none_iff_exists'.mp hsome
      have hpending := pending_turn hturn
      obtain ⟨last, hturns, hplanned, hleft, hvisited⟩ := ih (s := next) (by omega)
      refine ⟨last, ?_, hplanned.trans (planned_turn hturn), by omega, ?_⟩
      · rw [turns, hturn, Option.bind_some, hturns]
      · rw [hvisited, length_visited_turn hturn]
        omega

/-- The loop ends when no nodes are left. -/
theorem turns_eq_none {k : Nat} (hk : s.pending < k) : s.turns k = none := by
  induction k generalizing s with
  | zero => exact absurd hk (Nat.not_lt_zero _)
  | succ k ih =>
      rw [turns]
      cases hturn : s.turn with
      | none => rfl
      | some next =>
          have hpending := pending_turn hturn
          exact ih (by omega)

/-- The nodes that were visited are the first ones of those planned. -/
theorem visited_eq_take (s : Traversal) : s.visited = s.planned.take s.visited.length :=
  List.take_left.symm

theorem planned_start (t : SyntaxTree) : (start t).planned = t.placedNodes := by
  simp [planned, start, placedNodes]

theorem pending_start (t : SyntaxTree) : (start t).pending = t.size := by
  simp [pending, start, sizeAll]

/-- After any number of turns the traversal of a tree has visited as many of its nodes. -/
theorem turns_start {t : SyntaxTree} {k : Nat} (hk : k ≤ t.size) :
    ∃ s, (start t).turns k = some s ∧ s.visited = t.placedNodes.take k ∧
      s.pending + k = t.size := by
  rw [← pending_start] at hk
  obtain ⟨s, hs, hplanned, hpending, hvisited⟩ := turns_of_le hk
  refine ⟨s, hs, ?_, hpending.trans (pending_start t)⟩
  rw [s.visited_eq_take, hplanned, hvisited, planned_start]
  exact congrArg t.placedNodes.take (Nat.zero_add k)

/-- After as many turns as there are nodes all of them were visited, and the loop ends. -/
theorem turns_start_size (t : SyntaxTree) :
    ∃ last, (start t).turns t.size = some last ∧ last.turn = none ∧
      last.visited = t.placedNodes := by
  obtain ⟨last, hlast, hvisited, hpending⟩ := turns_start (Nat.le_refl t.size)
  refine ⟨last, hlast, ?_, ?_⟩
  · rw [turn_eq_none_iff, ← pending_eq_zero_iff]
    omega
  · rw [hvisited, ← length_placedNodes, List.take_length]

end Traversal

/-- **The traversal of a tree.**  For every tree:

* each turn of the loop, in whatever state, visits a node, as `visit` does, and leaves one node less
  to be visited;
* after as many turns as there are nodes the loop ends; before, after any number of turns, it has
  visited as many nodes, the first ones in preorder;
* these nodes are a node and then those of its children, from left to right; they are exactly the
  nodes at the addresses of the tree, each once and in the order of the addresses;
* that is what traversals find, and they find the nodes of a kind in the same order, the tree itself
  being the first of them if it is of that kind;
* the nodes of a kind come in the order of the text if they are laid out in one. -/
theorem traversal_visits_preorder (t : SyntaxTree) (kind : String) :
    let start := Traversal.start t
    let nodes := t.placedNodes
    let found := nodes.filter (·.tree.kind == kind)
    (∀ s next : Traversal, s.turn = some next → next.pending + 1 = s.pending ∧
      ∃ top, next.visited = s.visited ++ [top] ∧
        visit (s.stack.map Placed.tree) = top.tree :: visit (next.stack.map Placed.tree)) ∧
    ((∀ k ≤ t.size, ∃ s, start.turns k = some s ∧ s.visited = nodes.take k ∧
        s.pending + k = t.size) ∧
      (∃ last, start.turns t.size = some last ∧ last.turn = none ∧ last.visited = nodes) ∧
      ∀ k, t.size < k → start.turns k = none) ∧
    ((nodes = Placed.preorder ⟨[], t⟩ ∧
        ∀ n : Placed, n.preorder = n :: n.children.flatMap Placed.preorder) ∧
      (∀ n : Placed, n ∈ nodes ↔ t.at? n.address = some n.tree) ∧
      nodes.Pairwise Placed.Before ∧ (nodes.map Placed.address).Nodup) ∧
    (visit [t] = nodes.map Placed.tree ∧ visit [t] = t.preorder ∧
      t.descendants kind = found.map Placed.tree ∧
      (∀ n : Placed, n ∈ found ↔ t.at? n.address = some n.tree ∧ n.tree.kind = kind) ∧
      (t.kind = kind → found.head? = some ⟨[], t⟩)) ∧
    (t.Nested → (t.descendants kind).Pairwise fun a b => a.start ≤ b.start) := by
  intro start nodes found
  have hvisit : visit [t] = t.preorder := visit_singleton t
  refine ⟨fun s next h => ⟨Traversal.pending_turn h, Traversal.visit_turn h⟩,
    ⟨fun k hk => Traversal.turns_start hk, Traversal.turns_start_size t, fun k hk => ?_⟩,
    ⟨⟨rfl, Placed.preorder_eq⟩, fun n => mem_placedNodes_iff, Placed.pairwise_preorder _,
      Placed.nodup_map_address_preorder _⟩,
    ⟨hvisit.trans (map_tree_placedNodes t).symm, hvisit, descendants_eq t kind, fun n => ?_,
      head?_filter_placedNodes⟩, fun hnested => ?_⟩
  · exact Traversal.turns_eq_none (by rwa [Traversal.pending_start])
  · rw [List.mem_filter, mem_placedNodes_iff, beq_iff_eq]
  · rw [descendants, hvisit]
    exact hnested.pairwise_start_le.filter _

end WebBaseline.SyntaxTree
