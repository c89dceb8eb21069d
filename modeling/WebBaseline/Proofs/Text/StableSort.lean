import WebBaseline.Proofs.Text.ByteOrder

/-!
# Stable sorting by texts

A list is sorted stably by a key if its keys are in byte order and elements
with the same key keep their order.

* `eq_of_blocks` — there is one way to sort a list stably;
* `stablySorted_mergeSort` — merging sorted halves is that way.
-/

namespace WebBaseline

variable {α : Type} {key : α → String}

/-- Whether a list is another one, sorted stably by the bytes of a key. -/
structure StablySorted (key : α → String) (input sorted : List α) : Prop where
  /-- No element is lost or made up. -/
  permuted : sorted.Perm input
  /-- The keys are in byte order. -/
  ordered : sorted.Pairwise fun a b => Text.bytes (key a) ≤ Text.bytes (key b)
  /-- Elements with the same key keep their order. -/
  stable : ∀ k, sorted.filter (key · == k) = input.filter (key · == k)

/-- Lists with the same blocks of equal keys have the same elements. -/
theorem mem_iff_of_blocks {l m : List α}
    (hblocks : ∀ k, l.filter (key · == k) = m.filter (key · == k)) (a : α) : a ∈ l ↔ a ∈ m := by
  have h : a ∈ l.filter (key · == key a) ↔ a ∈ m.filter (key · == key a) := by
    rw [hblocks]
  simpa using h

/-- **Sorted lists and their blocks.**  Two lists in the order of a key are
equal if for each key they have the same elements in the same order. -/
theorem eq_of_blocks {l m : List α}
    (hl : l.Pairwise fun a b => Text.bytes (key a) ≤ Text.bytes (key b))
    (hm : m.Pairwise fun a b => Text.bytes (key a) ≤ Text.bytes (key b))
    (hblocks : ∀ k, l.filter (key · == k) = m.filter (key · == k)) : l = m := by
  induction l generalizing m with
  | nil =>
      symm
      rw [List.eq_nil_iff_forall_not_mem]
      exact fun a ha => List.not_mem_nil ((mem_iff_of_blocks hblocks a).mpr ha)
  | cons a l ih =>
      cases m with
      | nil =>
          exact absurd ((mem_iff_of_blocks hblocks a).mp List.mem_cons_self) List.not_mem_nil
      | cons b m =>
          obtain ⟨ha, hl'⟩ := List.pairwise_cons.mp hl
          obtain ⟨hb, hm'⟩ := List.pairwise_cons.mp hm
          -- Each of the two heads occurs in the other list, so neither key is the smaller one.
          have hkey : key a = key b := by
            have hab : key a ≤ key b := by
              rcases List.mem_cons.mp ((mem_iff_of_blocks hblocks b).mpr List.mem_cons_self)
                with rfl | hin
              · exact String.le_refl _
              · exact (Text.le_iff_bytes_le _ _).mpr (ha b hin)
            have hba : key b ≤ key a := by
              rcases List.mem_cons.mp ((mem_iff_of_blocks hblocks a).mp List.mem_cons_self)
                with rfl | hin
              · exact String.le_refl _
              · exact (Text.le_iff_bytes_le _ _).mpr (hb a hin)
            exact String.le_antisymm hab hba
          have hhead : a = b := by
            have h := hblocks (key a)
            simp only [List.filter_cons, beq_self_eq_true, if_true, hkey] at h
            exact (List.cons.inj h).1
          subst hhead
          refine congrArg (a :: ·) (ih hl' hm' fun k => ?_)
          have h := hblocks k
          rw [List.filter_cons, List.filter_cons] at h
          split at h
          · exact (List.cons.inj h).2
          · exact h

/-- **Merging is stable.**  A comparison of keys sorts every list stably. -/
theorem stablySorted_mergeSort {le : α → α → Bool} (hle : ∀ a b, le a b = true ↔ key a ≤ key b)
    (input : List α) : StablySorted key input (input.mergeSort le) := by
  have htrans : ∀ a b c, le a b = true → le b c = true → le a c = true := by
    intro a b c hab hbc
    exact (hle a c).mpr (String.le_trans ((hle a b).mp hab) ((hle b c).mp hbc))
  have htotal : ∀ a b, (le a b || le b a) = true := by
    intro a b
    rw [Bool.or_eq_true, hle, hle]
    exact String.le_total (key a) (key b)
  have hperm : (input.mergeSort le).Perm input := List.mergeSort_perm input le
  refine ⟨hperm, ?_, fun k => ?_⟩
  · refine (List.pairwise_mergeSort htrans htotal input).imp ?_
    intro a b hab
    exact (Text.le_iff_bytes_le _ _).mp ((hle a b).mp hab)
  · have hequal : (input.filter (key · == k)).Pairwise fun a b => le a b = true := by
      rw [List.pairwise_iff_forall_sublist]
      intro a b hab
      have ha : key a = k := by
        simpa using (List.mem_filter.mp (hab.subset List.mem_cons_self)).2
      have hb : key b = k := by
        simpa using (List.mem_filter.mp (hab.subset (List.mem_cons_of_mem a List.mem_cons_self))).2
      rw [hle, ha, hb]
    -- The block is a sublist of the sorted list, and so of its own block there, which is as long.
    have hsublist : (input.filter (key · == k)).Sublist (input.mergeSort le) :=
      List.sublist_mergeSort htrans htotal hequal List.filter_sublist
    have hfiltered := hsublist.filter (key · == k)
    rw [List.filter_filter] at hfiltered
    simp only [Bool.and_self] at hfiltered
    exact (hfiltered.eq_of_length (hperm.filter _).length_eq.symm).symm

end WebBaseline
