import Mathlib.Data.List.Pairwise
import WebBaseline.Proofs.SyntaxTree.Preorder
import WebBaseline.Text.Source

/-!
# Trees laid out in a text

The nodes of a tree are nested if the children of each node lie inside of it,
from left to right and without overlap.  Of two nodes of such a tree the one
that is visited later is below the other one or starts where that has ended, so
the nodes come in the order in which they start.

* `Nested`, `LaidOut` — the nesting of nodes, and the order of their points;
* `Nested.start_le_and_stop_le` — what is below a node is inside of it;
* `Nested.pairwise_preorder` — two nodes of a tree, in the order of the visit;
* `Nested.pairwise_stop_le_start` — nodes of a kind that is not nested in itself
  are apart from each other;
* `LaidOut.pairwise_point` — points in the order of the visit;
* `Nested.laidOut` — nested nodes with the points of a text's positions are laid out.
-/

namespace WebBaseline

instance : LE Point := ⟨fun p q => p.row < q.row ∨ p.row = q.row ∧ p.column ≤ q.column⟩

theorem Point.le_iff {p q : Point} :
    p ≤ q ↔ p.row < q.row ∨ p.row = q.row ∧ p.column ≤ q.column := Iff.rfl

instance (p q : Point) : Decidable (p ≤ q) := decidable_of_iff _ Point.le_iff.symm

namespace Text

/-- The point of a position. -/
def Extent.point (place : Extent) : Point := ⟨place.rows, place.column⟩

theorem Extent.point_le_add (place size : Extent) : place.point ≤ (place + size).point := by
  change place.rows < place.rows + size.rows ∨ place.rows = place.rows + size.rows ∧
    place.column ≤ if size.rows = 0 then place.column + size.column else size.column
  split <;> omega

theorem Extent.bytes_ofChar_pos (c : Char) : 0 < (Extent.ofChar c).bytes := by
  unfold Extent.ofChar
  split
  · exact Nat.one_pos
  · exact c.utf8Size_pos

namespace Source

theorem exists_of_mem_positionsFrom {place p : Extent} {cs : List Char}
    (h : p ∈ positionsFrom place cs) : ∃ size, p = place + size := by
  induction cs generalizing place with
  | nil => exact ⟨{}, List.mem_singleton.mp h⟩
  | cons c rest ih =>
      rcases List.mem_cons.mp h with rfl | hrest
      · exact ⟨{}, rfl⟩
      · obtain ⟨size, rfl⟩ := ih hrest
        exact ⟨Extent.ofChar c + size, Extent.add_assoc place (Extent.ofChar c) size⟩

/-- Positions of later characters are of later bytes, and their points are not before. -/
theorem pairwise_positionsFrom (place : Extent) (cs : List Char) :
    (positionsFrom place cs).Pairwise fun a b => a.bytes < b.bytes ∧ a.point ≤ b.point := by
  induction cs generalizing place with
  | nil => exact List.pairwise_singleton _ place
  | cons c rest ih =>
      rw [positionsFrom, List.pairwise_cons]
      refine ⟨fun p hp => ?_, ih (place + Extent.ofChar c)⟩
      obtain ⟨size, rfl⟩ := exists_of_mem_positionsFrom hp
      rw [Extent.add_assoc]
      refine ⟨?_, Extent.point_le_add _ _⟩
      have hchar := Extent.bytes_ofChar_pos c
      change place.bytes < place.bytes + ((Extent.ofChar c).bytes + size.bytes)
      omega

end Source

end Text

namespace SyntaxTree

/-- Whether a node is below another one. -/
def Below (node ancestor : SyntaxTree) : Prop :=
  ∃ child ∈ ancestor.children, node ∈ child.preorder

/-- Whether the children of every node lie inside of it, from left to right and without overlap. -/
structure Nested (tree : SyntaxTree) : Prop where
  ordered : ∀ node ∈ tree.preorder, node.start ≤ node.stop
  inside : ∀ node ∈ tree.preorder, ∀ child ∈ node.children,
    node.start ≤ child.start ∧ child.stop ≤ node.stop
  apart : ∀ node ∈ tree.preorder, node.children.Pairwise fun a b => a.stop ≤ b.start

/-- Whether the nodes of a tree are nested and have points in a text: those of bytes further on are
not before. -/
structure LaidOut (tree : SyntaxTree) : Prop extends Nested tree where
  points : ∀ a ∈ tree.preorder, ∀ b ∈ tree.preorder, a.start ≤ b.start → a.point ≤ b.point

/-- Whether no node of a kind is below another one of the kind. -/
def Unnested (kind : String) (tree : SyntaxTree) : Prop :=
  ∀ outer ∈ tree.preorder, outer.kind = kind →
    ∀ child ∈ outer.children, ∀ inner ∈ child.preorder, inner.kind ≠ kind

namespace Nested

variable {tree child node : SyntaxTree}

theorem of_mem_preorder (h : tree.Nested) (hnode : node ∈ tree.preorder) : node.Nested where
  ordered _ hbelow := h.ordered _ (mem_preorder_trans hnode hbelow)
  inside _ hbelow := h.inside _ (mem_preorder_trans hnode hbelow)
  apart _ hbelow := h.apart _ (mem_preorder_trans hnode hbelow)

/-- What is below a node is inside of it. -/
theorem start_le_and_stop_le (h : tree.Nested) (hnode : node ∈ tree.preorder) :
    tree.start ≤ node.start ∧ node.stop ≤ tree.stop := by
  induction tree using induction_on_children with
  | step tree ih =>
      rcases mem_preorder_iff.mp hnode with rfl | ⟨child, hchild, hbelow⟩
      · exact ⟨Nat.le_refl _, Nat.le_refl _⟩
      · have hmem : child ∈ tree.preorder :=
          mem_preorder_iff.mpr (Or.inr ⟨child, hchild, self_mem_preorder child⟩)
        have hinside := h.inside tree (self_mem_preorder tree) child hchild
        have hnested := ih child hchild (h.of_mem_preorder hmem) hbelow
        omega

/-- **Two nodes of a tree.**  The later one is below the earlier one or starts where that has
ended. -/
theorem pairwise_preorder (h : tree.Nested) :
    tree.preorder.Pairwise fun a b => b.Below a ∨ a.stop ≤ b.start := by
  induction tree using induction_on_children with
  | step tree ih =>
      have hchildren : ∀ child ∈ tree.children, child.Nested := fun child hchild =>
        h.of_mem_preorder (mem_preorder_iff.mpr (Or.inr ⟨child, hchild, self_mem_preorder child⟩))
      rw [preorder_eq, List.pairwise_cons, List.pairwise_flatMap]
      refine ⟨fun node hnode => Or.inl (List.mem_flatMap.mp hnode),
        fun child hchild => ih child hchild (hchildren child hchild), ?_⟩
      refine (h.apart tree (self_mem_preorder tree)).imp_of_mem ?_
      intro left right hleft hright hapart a ha b hb
      -- Nodes of different children are inside of these, and so as far apart.
      have hbefore := (hchildren left hleft).start_le_and_stop_le ha
      have hafter := (hchildren right hright).start_le_and_stop_le hb
      right
      omega

/-- The nodes of a tree start in the order of the visit. -/
theorem pairwise_start_le (h : tree.Nested) :
    tree.preorder.Pairwise fun a b => a.start ≤ b.start := by
  refine h.pairwise_preorder.imp_of_mem ?_
  intro a b ha hb hab
  rcases hab with ⟨child, hchild, hbelow⟩ | hafter
  · have hinside := (h.of_mem_preorder ha).start_le_and_stop_le
      (mem_preorder_iff.mpr (Or.inr ⟨child, hchild, hbelow⟩))
    exact hinside.1
  · exact Nat.le_trans (h.ordered a ha) hafter

/-- Nested nodes are laid out if their points are those of the positions of a text at which they
start. -/
theorem laidOut (h : tree.Nested) (source : String)
    (hplaces : ∀ node ∈ tree.preorder, ∃ place ∈ Text.Source.positionsFrom {} source.toList,
      place.bytes = node.start ∧ place.point = node.point) : tree.LaidOut where
  toNested := h
  points := by
    intro a ha b hb hab
    obtain ⟨place, hplace, hstart, hpoint⟩ := hplaces a ha
    obtain ⟨other, hother, hstart', hpoint'⟩ := hplaces b hb
    rw [← hpoint, ← hpoint']
    rw [← hstart, ← hstart'] at hab
    obtain ⟨i, hi, rfl⟩ := List.getElem_of_mem hplace
    obtain ⟨j, hj, rfl⟩ := List.getElem_of_mem hother
    have hordered := List.pairwise_iff_getElem.mp
      (Text.Source.pairwise_positionsFrom {} source.toList)
    rcases Nat.lt_trichotomy i j with hlt | rfl | hgt
    · exact (hordered i j hi hj hlt).2
    · exact Point.le_iff.mpr (Or.inr ⟨rfl, Nat.le_refl _⟩)
    · exact absurd (hordered j i hj hi hgt).1 (Nat.not_lt.mpr hab)

/-- Nodes of a kind that is not nested in itself are apart from each other. -/
theorem pairwise_stop_le_start {kind : String} (h : tree.Nested) (hkind : tree.Unnested kind) :
    (tree.preorder.filter (·.kind == kind)).Pairwise fun a b => a.stop ≤ b.start := by
  refine (h.pairwise_preorder.filter _).imp_of_mem ?_
  intro a b ha hb hab
  obtain ⟨hmem, hakind⟩ := List.mem_filter.mp ha
  have hbkind := (List.mem_filter.mp hb).2
  rcases hab with ⟨child, hchild, hbelow⟩ | hafter
  · have hother := hkind a hmem (beq_iff_eq.mp hakind) child hchild b hbelow
    exact absurd (beq_iff_eq.mp hbkind) hother
  · exact hafter

end Nested

namespace LaidOut

variable {tree node : SyntaxTree}

theorem of_mem_preorder (h : tree.LaidOut) (hnode : node ∈ tree.preorder) : node.LaidOut where
  toNested := h.toNested.of_mem_preorder hnode
  points a ha b hb := h.points a (mem_preorder_trans hnode ha) b (mem_preorder_trans hnode hb)

/-- No node is before the root. -/
theorem point_le (h : tree.LaidOut) (hnode : node ∈ tree.preorder) : tree.point ≤ node.point :=
  h.points tree (self_mem_preorder tree) node hnode (h.start_le_and_stop_le hnode).1

/-- What is inside of nodes that are apart comes in their order. -/
theorem point_le_of_apart (h : tree.LaidOut) {a b x y : SyntaxTree} (ha : a ∈ tree.preorder)
    (hb : b ∈ tree.preorder) (hab : a.stop ≤ b.start) (hx : x ∈ a.preorder) (hy : y ∈ b.preorder) :
    x.point ≤ y.point := by
  have hbefore := (h.of_mem_preorder ha).start_le_and_stop_le hx
  have hafter := (h.of_mem_preorder hb).start_le_and_stop_le hy
  have hwidth := (h.of_mem_preorder ha).ordered x hx
  refine h.points x (mem_preorder_trans ha hx) y (mem_preorder_trans hb hy) ?_
  omega

/-- The points of the nodes come in the order of the visit. -/
theorem pairwise_point (h : tree.LaidOut) :
    tree.preorder.Pairwise fun a b => a.point ≤ b.point :=
  h.toNested.pairwise_start_le.imp_of_mem fun ha hb hab => h.points _ ha _ hb hab

end LaidOut

end SyntaxTree

end WebBaseline
