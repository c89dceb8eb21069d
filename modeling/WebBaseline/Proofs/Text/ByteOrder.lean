import Mathlib.Data.String.Basic

/-!
# The order of texts by bytes

Texts are compared character by character.  Comparing the bytes that encode
them comes to the same: the encodings of two characters differ first in a byte
that orders them as the characters are ordered, whatever follows.

* `utf8EncodeChar_append_lt` — the encodings of two characters;
* `lt_iff_bytes_lt`, `le_iff_bytes_le` — texts and their bytes.
-/

namespace WebBaseline.Text

/-- The bytes that encode a text. -/
def bytes (s : String) : List UInt8 := s.toUTF8.data.toList

/-- Lists of bytes compare by their first bytes, and by what follows if these are equal. -/
theorem ofNat_cons_lt {a b : Nat} {s t : List UInt8} (hb : b < 256) (hle : a ≤ b)
    (hrest : a = b → s < t) : UInt8.ofNat a :: s < UInt8.ofNat b :: t := by
  rw [List.cons_lt_cons_iff]
  rcases Nat.lt_or_eq_of_le hle with hlt | heq
  · left
    rw [UInt8.lt_iff_toNat_lt, UInt8.toNat_ofNat', UInt8.toNat_ofNat']
    omega
  · exact Or.inr ⟨congrArg UInt8.ofNat heq, hrest heq⟩

/-- The four lengths of an encoded character. -/
theorem utf8EncodeChar_cases (c : Char) :
    (c.toNat ≤ 0x7f ∧ String.utf8EncodeChar c = [.ofNat c.toNat]) ∨
    (0x7f < c.toNat ∧ c.toNat ≤ 0x7ff ∧ String.utf8EncodeChar c =
      [.ofNat (c.toNat / 64 % 32 + 192), .ofNat (c.toNat % 64 + 128)]) ∨
    (0x7ff < c.toNat ∧ c.toNat ≤ 0xffff ∧ String.utf8EncodeChar c =
      [.ofNat (c.toNat / 4096 % 16 + 224), .ofNat (c.toNat / 64 % 64 + 128),
        .ofNat (c.toNat % 64 + 128)]) ∨
    (0xffff < c.toNat ∧ c.toNat < 0x110000 ∧ String.utf8EncodeChar c =
      [.ofNat (c.toNat / 262144 % 8 + 240), .ofNat (c.toNat / 4096 % 64 + 128),
        .ofNat (c.toNat / 64 % 64 + 128), .ofNat (c.toNat % 64 + 128)]) := by
  have hvalid : c.toNat < 0x110000 := by
    rcases c.valid with h | h
    · exact Nat.lt_trans h (by decide)
    · exact h.2
  unfold String.utf8EncodeChar
  by_cases h1 : c.toNat ≤ 0x7f
  · exact Or.inl ⟨h1, if_pos h1⟩
  · by_cases h2 : c.toNat ≤ 0x7ff
    · exact Or.inr (Or.inl ⟨by omega, h2, (if_neg h1).trans (if_pos h2)⟩)
    · by_cases h3 : c.toNat ≤ 0xffff
      · exact Or.inr (Or.inr (Or.inl
          ⟨by omega, h3, (if_neg h1).trans ((if_neg h2).trans (if_pos h3))⟩))
      · exact Or.inr (Or.inr (Or.inr
          ⟨by omega, hvalid, (if_neg h1).trans ((if_neg h2).trans (if_neg h3))⟩))

/-- **Two characters.**  Their encodings are ordered as they are, whatever follows. -/
theorem utf8EncodeChar_append_lt {c d : Char} (h : c < d) (s t : List UInt8) :
    String.utf8EncodeChar c ++ s < String.utf8EncodeChar d ++ t := by
  have hlt : c.toNat < d.toNat := h
  rcases utf8EncodeChar_cases c with ⟨hc, hc'⟩ | ⟨hc, hc₂, hc'⟩ | ⟨hc, hc₂, hc'⟩ | ⟨hc, hc₂, hc'⟩ <;>
  rcases utf8EncodeChar_cases d with ⟨hd, hd'⟩ | ⟨hd, hd₂, hd'⟩ | ⟨hd, hd₂, hd'⟩ | ⟨hd, hd₂, hd'⟩ <;>
  rw [hc', hd'] <;> simp only [List.cons_append, List.nil_append]
  -- Of two encodings of one length, some byte is the first to differ.
  case inl.inl => exact ofNat_cons_lt (by omega) (by omega) fun _ => by omega
  case inr.inl.inr.inl =>
      refine ofNat_cons_lt (by omega) (by omega) fun h₁ => ?_
      exact ofNat_cons_lt (by omega) (by omega) fun _ => by omega
  case inr.inr.inl.inr.inr.inl =>
      refine ofNat_cons_lt (by omega) (by omega) fun h₁ => ?_
      refine ofNat_cons_lt (by omega) (by omega) fun h₂ => ?_
      exact ofNat_cons_lt (by omega) (by omega) fun _ => by omega
  case inr.inr.inr.inr.inr.inr =>
      refine ofNat_cons_lt (by omega) (by omega) fun h₁ => ?_
      refine ofNat_cons_lt (by omega) (by omega) fun h₂ => ?_
      refine ofNat_cons_lt (by omega) (by omega) fun h₃ => ?_
      exact ofNat_cons_lt (by omega) (by omega) fun _ => by omega
  -- Longer encodings have greater first bytes, and belong to greater characters.
  all_goals exact ofNat_cons_lt (by omega) (by omega) fun _ => by omega

/-- The bytes of a text are those of its characters. -/
theorem bytes_eq_flatMap (s : String) : bytes s = s.toList.flatMap String.utf8EncodeChar := by
  rw [bytes, String.toUTF8, ← String.utf8Encode_toList, List.utf8Encode]
  simp

/-- Smaller texts have smaller bytes. -/
theorem flatMap_utf8EncodeChar_lt {cs ds : List Char} (h : cs < ds) :
    cs.flatMap String.utf8EncodeChar < ds.flatMap String.utf8EncodeChar := by
  induction h with
  | nil =>
      rename_i d ds
      have hne : String.utf8EncodeChar d ≠ [] := String.utf8EncodeChar_ne_nil
      rw [List.flatMap_nil, List.flatMap_cons]
      cases henc : String.utf8EncodeChar d with
      | nil => exact absurd henc hne
      | cons b bs => exact List.nil_lt_cons b _
  | rel hcd =>
      rw [List.flatMap_cons, List.flatMap_cons]
      exact utf8EncodeChar_append_lt hcd _ _
  | cons _ ih =>
      rw [List.flatMap_cons, List.flatMap_cons]
      exact List.append_left_lt ih

/-- A text is smaller than another if its bytes are. -/
theorem lt_iff_bytes_lt (s t : String) : s < t ↔ bytes s < bytes t := by
  have hmono : ∀ {s t : String}, s < t → bytes s < bytes t := by
    intro s t h
    rw [bytes_eq_flatMap, bytes_eq_flatMap]
    exact flatMap_utf8EncodeChar_lt (String.lt_iff_toList_lt.mp h)
  constructor
  · exact hmono
  · intro h
    rcases lt_trichotomy s t with hlt | rfl | hgt
    · exact hlt
    · exact absurd h (List.lt_irrefl _)
    · exact absurd h (List.lt_asymm (hmono hgt))

/-- **Texts are ordered as their bytes are.** -/
theorem le_iff_bytes_le (s t : String) : s ≤ t ↔ bytes s ≤ bytes t := by
  rw [← not_lt, lt_iff_bytes_lt, List.not_lt]

end WebBaseline.Text
