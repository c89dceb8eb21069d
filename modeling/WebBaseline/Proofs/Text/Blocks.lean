import Mathlib.Data.List.Perm.Basic
import WebBaseline.Proofs.Text.StableSort

/-!
# Lists in blocks

The blocks of a list are, for each of some keys, its items with that key in
their order.

* `perm_blocks` — blocks of distinct keys hold every item of one of the keys once;
* `blocks_eq_self` — blocks in the order of their keys are the list, if that is
  in the order of its keys as well.
-/

namespace WebBaseline

variable {α β : Type} [DecidableEq β]

/-- The items with the first of some keys, then those with the second, and so on. -/
def blocks (key : α → β) (keys : List β) (items : List α) : List α :=
  keys.flatMap fun k => items.filter (key · == k)

/-- **Nothing is lost or repeated.**  Blocks of distinct keys are the items that
have one of the keys, each once. -/
theorem perm_filter_blocks (key : α → β) {keys : List β} (hkeys : keys.Nodup) (items : List α) :
    (blocks key keys items).Perm (items.filter fun a => keys.contains (key a)) := by
  induction keys with
  | nil => simp [blocks]
  | cons k rest ih =>
      obtain ⟨hnew, hrest⟩ := List.nodup_cons.mp hkeys
      -- The items with one of the keys are those with the first one, and the others.
      have hfirst : (items.filter fun a => (k :: rest).contains (key a)).filter (key · == k) =
          items.filter (key · == k) := by
        rw [List.filter_filter]
        refine List.filter_congr fun a _ => ?_
        by_cases hk : key a = k <;> simp [hk]
      have hothers : (items.filter fun a => (k :: rest).contains (key a)).filter
          (fun a => !(key a == k)) = items.filter fun a => rest.contains (key a) := by
        rw [List.filter_filter]
        refine List.filter_congr fun a _ => ?_
        by_cases hk : key a = k
        · simp [hk, hnew]
        · simp [hk]
      have hsplit := List.filter_append_perm (key · == k)
        (items.filter fun a => (k :: rest).contains (key a))
      rw [hfirst, hothers] at hsplit
      exact ((ih hrest).append_left (items.filter (key · == k))).trans hsplit

/-- Blocks of distinct keys are the whole list if every item has one of the keys. -/
theorem perm_blocks {key : α → β} {keys : List β} (hkeys : keys.Nodup) {items : List α}
    (hall : ∀ a ∈ items, key a ∈ keys) : (blocks key keys items).Perm items := by
  have hperm := perm_filter_blocks key hkeys items
  rwa [List.filter_eq_self.mpr fun a ha => List.contains_iff_mem.mpr (hall a ha)] at hperm

/-- The items with one key are together, in the order they had. -/
theorem filter_blocks (key : α → β) {keys : List β} (hkeys : keys.Nodup) (items : List α) (k : β) :
    (blocks key keys items).filter (key · == k) =
      if k ∈ keys then items.filter (key · == k) else [] := by
  induction keys with
  | nil => rfl
  | cons j rest ih =>
      obtain ⟨hnew, hrest⟩ := List.nodup_cons.mp hkeys
      have hblock : (items.filter (key · == j)).filter (key · == k) =
          if j = k then items.filter (key · == k) else [] := by
        rw [List.filter_filter]
        split
        · rename_i hjk
          subst hjk
          simp only [Bool.and_self]
        · rename_i hjk
          refine List.filter_eq_nil_iff.mpr fun a _ ha => hjk ?_
          obtain ⟨hk, hj⟩ := Bool.and_eq_true_iff.mp ha
          exact (eq_of_beq hj).symm.trans (eq_of_beq hk)
      rw [blocks, List.flatMap_cons, List.filter_append, hblock, ← blocks, ih hrest]
      by_cases hjk : j = k
      · subst hjk
        simp [hnew]
      · simp [hjk, Ne.symm hjk]

/-- **Blocks of a sorted list.**  A list in the order of its keys is made of its blocks, taken in
the order of the keys. -/
theorem blocks_eq_self {key : α → String} {keys : List String} {items : List α}
    (hkeys : keys.Pairwise fun j k => Text.bytes j < Text.bytes k)
    (hitems : items.Pairwise fun a b => Text.bytes (key a) ≤ Text.bytes (key b))
    (hall : ∀ a ∈ items, key a ∈ keys) : blocks key keys items = items := by
  have hnodup : keys.Nodup := hkeys.imp fun h => by
    rintro rfl
    exact List.lt_irrefl _ h
  have hkey : ∀ {k a}, a ∈ items.filter (key · == k) → key a = k := fun ha =>
    eq_of_beq (List.mem_filter.mp ha).2
  have hsorted : (blocks key keys items).Pairwise fun a b =>
      Text.bytes (key a) ≤ Text.bytes (key b) := by
    rw [blocks, List.pairwise_flatMap]
    refine ⟨fun k _ => hitems.sublist List.filter_sublist, hkeys.imp fun hlt a ha b hb => ?_⟩
    rw [hkey ha, hkey hb]
    exact List.le_of_lt hlt
  refine eq_of_blocks hsorted hitems fun k => ?_
  rw [filter_blocks key hnodup items k]
  split
  · rfl
  · rename_i hk
    refine (List.filter_eq_nil_iff.mpr fun a ha hak => hk ?_).symm
    exact eq_of_beq hak ▸ hall a ha

end WebBaseline
