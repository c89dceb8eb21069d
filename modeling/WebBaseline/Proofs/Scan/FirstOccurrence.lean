import Mathlib.Data.List.Basic

/-!
# First occurrences

Of the items of a list that share a key, the first one is kept.

* `firstsBy_cons` — the first item is kept, and of the others those with other keys;
* `firstsBy_induction` — induction that follows this equation;
* `sublist_firstsBy`, `pairwise_firstsBy` — some of the items are kept, in their
  order, and with distinct keys;
* `find?_firstsBy` — a search that goes by keys finds what it finds in the whole list;
* `exists_mem_firstsBy` — no key is lost.
-/

namespace WebBaseline

variable {α β : Type} [DecidableEq β] {key : α → β}

/-- The items of a list whose key no item before them has. -/
def firstsBy (key : α → β) (items : List α) : List α :=
  items.eraseDupsBy fun a b => key a == key b

theorem firstsBy_nil : firstsBy key [] = [] := rfl

/-- The first item is kept, and of the others those with other keys. -/
theorem firstsBy_cons (a : α) (rest : List α) :
    firstsBy key (a :: rest) = a :: firstsBy key (rest.filter fun b => key b ≠ key a) := by
  simp [firstsBy, List.eraseDupsBy_cons]

/-- **Induction on first occurrences.**  After the first item it goes on with the
items of other keys. -/
theorem firstsBy_induction (key : α → β) {motive : List α → Prop} (nil : motive [])
    (cons : ∀ a rest, motive (rest.filter fun b => key b ≠ key a) → motive (a :: rest)) :
    ∀ items, motive items
  | [] => nil
  | a :: rest => cons a rest (firstsBy_induction key nil cons _)
termination_by items => items.length
decreasing_by exact Nat.lt_succ_of_le (List.length_filter_le _ rest)

/-- What is kept is some of the items, in their order. -/
theorem sublist_firstsBy (items : List α) : (firstsBy key items).Sublist items := by
  induction items using firstsBy_induction key with
  | nil => exact List.Sublist.refl []
  | cons a rest ih =>
      rw [firstsBy_cons]
      exact (ih.trans List.filter_sublist).cons_cons a

/-- What is kept has distinct keys. -/
theorem pairwise_firstsBy (items : List α) :
    (firstsBy key items).Pairwise fun a b => key a ≠ key b := by
  induction items using firstsBy_induction key with
  | nil => exact List.Pairwise.nil
  | cons a rest ih =>
      rw [firstsBy_cons, List.pairwise_cons]
      refine ⟨fun b hb heq => ?_, ih⟩
      have hother := (List.mem_filter.mp ((sublist_firstsBy _).mem hb)).2
      exact of_decide_eq_true hother heq.symm

/-- **Searches by key.**  A search that goes by keys finds the same among the items
that are kept as among all. -/
theorem find?_firstsBy {p : α → Bool} (hp : ∀ a b, key a = key b → p a = p b)
    (items : List α) : (firstsBy key items).find? p = items.find? p := by
  induction items using firstsBy_induction key with
  | nil => rfl
  | cons a rest ih =>
      rw [firstsBy_cons, List.find?_cons, List.find?_cons, ih]
      cases ha : p a with
      | true => rfl
      | false =>
          -- The items that are left out have the key of the first one, so they are not looked for.
          simp only []
          rw [List.find?_filter]
          congr 1
          funext b
          by_cases hkey : key b = key a
          · simp [hkey, hp b a hkey, ha]
          · simp [hkey]

/-- The key of every item is that of an item that is kept. -/
theorem exists_mem_firstsBy {a : α} {items : List α} (h : a ∈ items) :
    ∃ b ∈ firstsBy key items, key b = key a := by
  have hsome : ((firstsBy key items).find? fun b => key b == key a).isSome = true := by
    rw [find?_firstsBy (fun b c hbc => by rw [hbc]), List.find?_isSome]
    exact ⟨a, h, beq_self_eq_true _⟩
  obtain ⟨b, hb, hkey⟩ := List.find?_isSome.mp hsome
  exact ⟨b, hb, beq_iff_eq.mp hkey⟩

/-- Items that are kept are items. -/
theorem mem_of_mem_firstsBy {a : α} {items : List α} (h : a ∈ firstsBy key items) : a ∈ items :=
  (sublist_firstsBy items).mem h

end WebBaseline
