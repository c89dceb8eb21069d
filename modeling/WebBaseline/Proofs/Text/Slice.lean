import Mathlib.Data.String.Basic
import WebBaseline.SyntaxTree

/-!
# The texts of nodes

The bytes between two places of a text are a text of their own only if both
places lie between characters.  A node whose range is not such a slice of the
source counts as a node without text.

* `exists_isSlice_iff` — which ranges are slices, by the validity of their ends;
* `extract_of_isSlice` — the slice of a range is cut out of the source;
* `SyntaxTree.text_eq_iff` — the text of every node.
-/

namespace WebBaseline

namespace Text

/-- Whether a text is the part of another from one byte to a second one. -/
def IsSlice (source : String) (start stop : Nat) (s : String) : Prop :=
  ∃ before after, source = before ++ s ++ after ∧ before.utf8ByteSize = start ∧
    start + s.utf8ByteSize = stop

/-- Of two parts that start a text, the one with fewer bytes starts the other one. -/
theorem exists_append_of_utf8ByteSize_le {short rest long after : String}
    (h : short ++ rest = long ++ after) (hle : short.utf8ByteSize ≤ long.utf8ByteSize) :
    ∃ middle, long = short ++ middle := by
  have hlists : short.toList ++ rest.toList = long.toList ++ after.toList := by
    rw [← String.toList_append, h, String.toList_append]
  have hlong : long.toList <+: short.toList ++ rest.toList :=
    hlists ▸ List.prefix_append long.toList after.toList
  rcases List.prefix_or_prefix_of_prefix (List.prefix_append short.toList rest.toList) hlong with
    ⟨middle, hmiddle⟩ | ⟨more, hmore⟩
  · refine ⟨String.ofList middle, ?_⟩
    rw [← String.toList_inj, String.toList_append, String.toList_ofList, hmiddle]
  · have hsplit : short = long ++ String.ofList more := by
      rw [← String.toList_inj, String.toList_append, String.toList_ofList, hmore]
    -- What the longer part lacks has no bytes, so it lacks nothing.
    have hnone : (String.ofList more).utf8ByteSize = 0 := by
      rw [hsplit, String.utf8ByteSize_append] at hle
      omega
    rw [String.utf8ByteSize_eq_zero_iff.mp hnone, String.append_empty] at hsplit
    exact ⟨"", by rw [hsplit, String.append_empty]⟩

/-- **Slices.**  A range is one if it is in order and neither end cuts a character. -/
theorem exists_isSlice_iff {source : String} {start stop : Nat} :
    (∃ s, IsSlice source start stop s) ↔
      start ≤ stop ∧ (⟨start⟩ : String.Pos.Raw).IsValid source ∧
        (⟨stop⟩ : String.Pos.Raw).IsValid source := by
  simp only [String.Pos.Raw.isValid_iff_exists_append]
  constructor
  · rintro ⟨s, before, after, rfl, rfl, rfl⟩
    refine ⟨Nat.le_add_right _ _, ⟨before, s ++ after, String.append_assoc, rfl⟩,
      before ++ s, after, rfl, ?_⟩
    exact String.Pos.Raw.ext String.utf8ByteSize_append.symm
  · rintro ⟨hle, ⟨before, rest, rfl, hbefore⟩, upTo, after, hsame, hupTo⟩
    obtain rfl : start = before.utf8ByteSize := congrArg String.Pos.Raw.byteIdx hbefore
    obtain rfl : stop = upTo.utf8ByteSize := congrArg String.Pos.Raw.byteIdx hupTo
    obtain ⟨middle, rfl⟩ := exists_append_of_utf8ByteSize_le hsame hle
    exact ⟨middle, before, after, hsame, rfl, String.utf8ByteSize_append.symm⟩

/-- A slice is what is cut out of the source. -/
theorem extract_of_isSlice {source s : String} {start stop : Nat}
    (h : IsSlice source start stop s) :
    String.Pos.Raw.extract source ⟨start⟩ ⟨stop⟩ = s := by
  obtain ⟨before, after, rfl, rfl, rfl⟩ := h
  have hextract := String.extract_of_valid before.toList s.toList after.toList
  simpa [String.append_assoc] using hextract

end Text

namespace SyntaxTree

/-- Whether a node stands for a text: the slice of its range, or nothing if that is no slice. -/
def HasText (source : String) (node : SyntaxTree) (s : String) : Prop :=
  Text.IsSlice source node.start node.stop s ∨
    s = "" ∧ ∀ t, ¬ Text.IsSlice source node.start node.stop t

/-- **The text of a node** is the one that it stands for. -/
theorem text_eq_iff {source s : String} {node : SyntaxTree} :
    node.text source = s ↔ node.HasText source s := by
  have hslice : (node.start ≤ node.stop && (⟨node.start⟩ : String.Pos.Raw).isValid source &&
      (⟨node.stop⟩ : String.Pos.Raw).isValid source) = true ↔
        ∃ t, Text.IsSlice source node.start node.stop t := by
    rw [Text.exists_isSlice_iff, Bool.and_eq_true, Bool.and_eq_true, decide_eq_true_eq,
      String.Pos.Raw.isValid_eq_true_iff, String.Pos.Raw.isValid_eq_true_iff, and_assoc]
  unfold text HasText
  by_cases hcut : ∃ t, Text.IsSlice source node.start node.stop t
  · rw [if_pos (hslice.mpr hcut)]
    obtain ⟨t, ht⟩ := hcut
    constructor
    · rintro rfl
      rw [Text.extract_of_isSlice ht]
      exact Or.inl ht
    · rintro (hs | ⟨-, hnone⟩)
      · exact Text.extract_of_isSlice hs
      · exact absurd ht (hnone t)
  · rw [if_neg (mt hslice.mp hcut)]
    have hnone : ∀ t, ¬ Text.IsSlice source node.start node.stop t := not_exists.mp hcut
    constructor
    · rintro rfl
      exact Or.inr ⟨rfl, hnone⟩
    · rintro (hs | ⟨rfl, -⟩)
      · exact absurd hs (hnone s)
      · rfl

end SyntaxTree

end WebBaseline
