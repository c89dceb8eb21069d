import Mathlib.Data.List.Induction
import WebBaseline.Proofs.Scan.ResultInvariant
import WebBaseline.Proofs.Text.Blocks
import WebBaseline.Report.Diagnostic

/-!
# Diagnostics by file

Diagnostics are grouped one issue after the other: each goes into the group of
its file, wherever that stands among the groups there are, or starts a new one.

* `pairwise_idxOf_eraseDups` — texts in the order in which they first occur;
* `keys_addTo`, `mem_addTo` — what one more issue does to the groups;
* `Grouped`, `Grouped.addTo`, `grouped_byFile` — what holds of the groups of the
  issues so far, and so of those of all issues;
* `Grouped.flatMap_eq` — the groups one after the other are the blocks of the list;
* `Grouped.ascending` — the files of sorted issues;
* `diagnostics_by_file` — the groups of every list, and of every result.
-/

namespace WebBaseline

/-! ### First occurrences -/

/-- One more text is kept behind the others, unless it is one of them. -/
theorem eraseDups_append_singleton (texts : List String) (t : String) :
    (texts ++ [t]).eraseDups =
      if t ∈ texts then texts.eraseDups else texts.eraseDups ++ [t] := by
  have hone : [t].eraseDups = [t] := rfl
  rw [List.eraseDups_append]
  split <;> rename_i ht <;> simp [List.removeAll, ht, hone]

/-- Texts without repetitions are in the order in which they first occur. -/
theorem pairwise_idxOf_eraseDups (texts : List String) :
    texts.eraseDups.Pairwise fun a b => texts.idxOf a < texts.idxOf b := by
  induction texts using List.reverseRecOn with
  | nil => exact List.Pairwise.nil
  | append_singleton texts t ih =>
      have hold : texts.eraseDups.Pairwise fun a b =>
          (texts ++ [t]).idxOf a < (texts ++ [t]).idxOf b := by
        refine ih.imp_of_mem fun {a b} ha hb hlt => ?_
        rwa [List.idxOf_append_of_mem (List.mem_eraseDups.mp ha),
          List.idxOf_append_of_mem (List.mem_eraseDups.mp hb)]
      rw [eraseDups_append_singleton]
      split
      · exact hold
      · rename_i ht
        -- A new text stands behind all others, and so does its first occurrence.
        have hlast : ∀ a ∈ texts.eraseDups,
            (texts ++ [t]).idxOf a < (texts ++ [t]).idxOf t := by
          intro a ha
          have hmem : a ∈ texts := List.mem_eraseDups.mp ha
          have hbefore : texts.idxOf a < texts.length := List.idxOf_lt_length_of_mem hmem
          rw [List.idxOf_append_of_mem hmem, List.idxOf_append_of_notMem ht]
          omega
        rw [List.pairwise_append]
        refine ⟨hold, List.pairwise_singleton _ t, fun a ha b hb => ?_⟩
        obtain rfl := List.mem_singleton.mp hb
        exact hlast a ha

/-- Nothing occurs twice among texts without repetitions. -/
theorem nodup_eraseDups (texts : List String) : texts.eraseDups.Nodup :=
  (pairwise_idxOf_eraseDups texts).imp fun hlt => by
    rintro rfl
    exact Nat.lt_irrefl _ hlt

namespace Diagnostic

variable {issues : List Issue} {groups : List (String × List Diagnostic)}

/-! ### One more issue -/

/-- One more issue adds its file behind the others, unless it has a group. -/
theorem keys_addTo (i : Issue) (groups : List (String × List Diagnostic)) :
    (addTo i groups).map (·.1) =
      if i.file ∈ groups.map (·.1) then groups.map (·.1) else groups.map (·.1) ++ [i.file] := by
  induction groups with
  | nil => rfl
  | cons g rest ih =>
      obtain ⟨file, group⟩ := g
      by_cases hfile : file = i.file
      · simp [addTo, hfile]
      · simp only [addTo, if_neg hfile, List.map_cons, ih, List.mem_cons, Ne.symm hfile, false_or]
        split <;> rfl

/-- One more issue leaves the groups of other files as they are, and comes last
in the group of its own one. -/
theorem mem_addTo {i : Issue} (hkeys : (groups.map (·.1)).Nodup) {g : String × List Diagnostic}
    (hg : g ∈ addTo i groups) :
    (g ∈ groups ∧ g.1 ≠ i.file) ∨
    (∃ old, (i.file, old) ∈ groups ∧ g = (i.file, old ++ [ofIssue i])) ∨
    (i.file ∉ groups.map (·.1) ∧ g = (i.file, [ofIssue i])) := by
  induction groups with
  | nil => exact Or.inr (Or.inr ⟨List.not_mem_nil, List.mem_singleton.mp hg⟩)
  | cons h rest ih =>
      obtain ⟨file, group⟩ := h
      obtain ⟨hnew, hrest⟩ := List.nodup_cons.mp hkeys
      by_cases hfile : file = i.file
      · subst hfile
        rw [addTo, if_pos rfl] at hg
        rcases List.mem_cons.mp hg with rfl | hmem
        · exact Or.inr (Or.inl ⟨group, List.mem_cons_self, rfl⟩)
        · refine Or.inl ⟨List.mem_cons_of_mem _ hmem, fun heq => hnew ?_⟩
          exact List.mem_map.mpr ⟨g, hmem, heq⟩
      · rw [addTo, if_neg hfile] at hg
        rcases List.mem_cons.mp hg with rfl | hmem
        · exact Or.inl ⟨List.mem_cons_self, hfile⟩
        · rcases ih hrest hmem with ⟨hold, hne⟩ | ⟨old, hold, heq⟩ | ⟨hnone, heq⟩
          · exact Or.inl ⟨List.mem_cons_of_mem _ hold, hne⟩
          · exact Or.inr (Or.inl ⟨old, List.mem_cons_of_mem _ hold, heq⟩)
          · refine Or.inr (Or.inr ⟨fun hin => ?_, heq⟩)
            rcases List.mem_cons.mp hin with hsame | hin
            · exact hfile hsame.symm
            · exact hnone hin

/-! ### The invariant -/

/-- What the groups of some issues are. -/
structure Grouped (issues : List Issue) (groups : List (String × List Diagnostic)) : Prop where
  /-- There is one group for each file, in the order in which files first occur. -/
  keys : groups.map (·.1) = (issues.map Issue.file).eraseDups
  /-- A group holds the diagnostics of its file, in their order. -/
  content : ∀ g ∈ groups, g.2 = (issues.filter (·.file == g.1)).map ofIssue

/-- **One step.**  The groups are right after one more issue. -/
theorem Grouped.addTo (h : Grouped issues groups) (i : Issue) :
    Grouped (issues ++ [i]) (addTo i groups) where
  keys := by
    rw [keys_addTo, h.keys, List.map_append, List.map_singleton, eraseDups_append_singleton]
    simp only [List.mem_eraseDups]
  content := by
    intro g hg
    have hnodup : (groups.map (·.1)).Nodup := h.keys ▸ nodup_eraseDups _
    rw [List.filter_append, List.map_append]
    rcases mem_addTo hnodup hg with ⟨hold, hne⟩ | ⟨old, hold, rfl⟩ | ⟨hnone, rfl⟩
    · have hother : [i].filter (·.file == g.1) = [] := by simp [Ne.symm hne]
      rw [hother, List.map_nil, List.append_nil, h.content g hold]
    · have hcontent : old = (issues.filter (·.file == i.file)).map ofIssue := h.content _ hold
      rw [hcontent]
      simp
    · have hfirst : issues.filter (·.file == i.file) = [] := by
        refine List.filter_eq_nil_iff.mpr fun j hj hfile => hnone ?_
        rw [h.keys, List.mem_eraseDups]
        exact eq_of_beq hfile ▸ List.mem_map_of_mem hj
      rw [hfirst]
      simp

/-- **All steps.**  The groups of a list are right. -/
theorem grouped_byFile (issues : List Issue) : Grouped issues (byFile issues) := by
  induction issues using List.reverseRecOn with
  | nil => exact ⟨rfl, fun g hg => absurd hg List.not_mem_nil⟩
  | append_singleton issues i ih =>
      have hstep : byFile (issues ++ [i]) = Diagnostic.addTo i (byFile issues) := by
        rw [byFile, List.foldl_append]
        rfl
      exact hstep ▸ ih.addTo i

/-- The files of groups are those of the issues. -/
theorem Grouped.mem_keys_iff (h : Grouped issues groups) (file : String) :
    file ∈ groups.map (·.1) ↔ ∃ i ∈ issues, i.file = file := by
  rw [h.keys, List.mem_eraseDups, List.mem_map]

/-- The groups one after the other are the blocks of the issues. -/
theorem Grouped.flatMap_eq (h : Grouped issues groups) :
    groups.flatMap (·.2) = (blocks Issue.file (groups.map (·.1)) issues).map ofIssue := by
  rw [blocks, List.flatMap_map, List.map_flatMap]
  exact List.flatMap_congr h.content

/-- The sizes of groups add up to the number of issues. -/
theorem Grouped.sum_length (h : Grouped issues groups) :
    (groups.map (·.2.length)).sum = issues.length := by
  have hperm : (blocks Issue.file (groups.map (·.1)) issues).Perm issues :=
    perm_blocks (h.keys ▸ nodup_eraseDups _) fun i hi => (h.mem_keys_iff i.file).mpr ⟨i, hi, rfl⟩
  calc (groups.map (·.2.length)).sum
      = (groups.flatMap (·.2)).length := List.length_flatMap.symm
    _ = (blocks Issue.file (groups.map (·.1)) issues).length := by
        rw [h.flatMap_eq, List.length_map]
    _ = issues.length := hperm.length_eq

/-! ### Sorted issues -/

/-- The files of sorted issues come in ascending order. -/
theorem Grouped.ascending (h : Grouped issues groups)
    (hsorted : issues.Pairwise fun a b => Text.bytes a.file ≤ Text.bytes b.file) :
    (groups.map (·.1)).Pairwise fun f g => Text.bytes f < Text.bytes g := by
  have hfiles : (issues.map Issue.file).Pairwise fun f g => Text.bytes f ≤ Text.bytes g :=
    List.pairwise_map.mpr hsorted
  rw [h.keys]
  refine (pairwise_idxOf_eraseDups _).imp_of_mem fun {f g} hf hg hlt => ?_
  have hf' := List.idxOf_lt_length_of_mem (List.mem_eraseDups.mp hf)
  have hg' := List.idxOf_lt_length_of_mem (List.mem_eraseDups.mp hg)
  have hle := List.pairwise_iff_getElem.mp hfiles _ _ hf' hg' hlt
  rw [List.getElem_idxOf, List.getElem_idxOf] at hle
  have hne : f ≠ g := by
    rintro rfl
    exact Nat.lt_irrefl _ hlt
  exact (Text.lt_iff_bytes_lt f g).mp (lt_of_le_of_ne ((Text.le_iff_bytes_le f g).mpr hle) hne)

/-- **Diagnostics by file.**  For every list of issues the groups have distinct
files, those of the issues, in the order in which they first occur; each group
is what the issues of its file give, in their order, and none is empty; so their
sizes add up.  For every result, however it was edited, the groups one after the
other are what its issues give, and files ascend. -/
theorem diagnostics_by_file :
    (∀ issues : List Issue,
      let groups := byFile issues
      let keys := groups.map (·.1)
      let files := issues.map Issue.file
      keys.Nodup ∧ (∀ file, file ∈ keys ↔ file ∈ files) ∧
      (keys.Pairwise fun f g => files.idxOf f < files.idxOf g) ∧
      (∀ g ∈ groups, g.2 ≠ [] ∧ g.2 = (issues.filter (·.file == g.1)).map ofIssue) ∧
      (groups.map (·.2.length)).sum = issues.length) ∧
    ∀ (input : List Issue) (edits : List (Nat × Priority)),
      let r := (ScanResult.ofIssues input).edited edits
      (byFile r.issues).flatMap (·.2) = r.issues.map ofIssue ∧
      ((byFile r.issues).map (·.1)).Pairwise fun f g => Text.bytes f < Text.bytes g := by
  constructor
  · intro issues groups keys files
    have h : Grouped issues groups := grouped_byFile issues
    have hmem : ∀ file, file ∈ keys ↔ file ∈ files := fun file =>
      (h.mem_keys_iff file).trans List.mem_map.symm
    have hkeys : keys = files.eraseDups := h.keys
    refine ⟨hkeys ▸ nodup_eraseDups files, hmem, hkeys ▸ pairwise_idxOf_eraseDups files, ?_,
      h.sum_length⟩
    intro g hg
    refine ⟨fun hnil => ?_, h.content g hg⟩
    obtain ⟨i, hi, hfile⟩ := (h.mem_keys_iff g.1).mp (List.mem_map_of_mem hg)
    rw [h.content g hg, List.map_eq_nil_iff, List.filter_eq_nil_iff] at hnil
    exact hnil i hi (beq_iff_eq.mpr hfile)
  · intro input edits r
    have h : Grouped r.issues (byFile r.issues) := grouped_byFile r.issues
    have hsorted := ((ScanResult.derived_ofIssues input).edited edits).sorted
    have hascending := h.ascending hsorted
    refine ⟨?_, hascending⟩
    rw [h.flatMap_eq, blocks_eq_self hascending hsorted
      fun i hi => (h.mem_keys_iff i.file).mpr ⟨i, hi, rfl⟩]

end Diagnostic

end WebBaseline
