import WebBaseline.Json.Decoding
import WebBaseline.Proofs.Decoding.Restoring
import WebBaseline.Proofs.Json.Members

/-!
# Reading back records from JSON values

A value is read as what was written if it is the very same value.

* `restores` — the format gives back what is written to the target;
* `Members.get?_ofList` — a key that is given once has its own value.
-/

namespace WebBaseline.Json

open Decoding

/-- JSON as a format to write records to. -/
def target : Encoding.Target Json where
  natural n := .integer n
  text := .text
  boolean := .bool
  list := .array
  record := .object

/-- **Reading JSON back.**  The format gives back what is written to the target. -/
theorem restores : Restores target format fun w n => n = w where
  natural := by
    rintro k _ rfl bound hk - typeName
    have hrange : 0 ≤ (k : Int) ∧ (k : Int) < bound := by omega
    exact if_pos hrange
  text := by
    rintro s _ rfl expected
    rfl
  choice := by
    rintro s _ rfl names hs
    exact if_pos (List.contains_iff_mem.mpr hs)
  boolean := by
    rintro b _ rfl
    rfl
  items := by
    rintro all _ rfl
    exact ⟨all, rfl, List.forall₂_same.mpr fun _ _ => rfl⟩
  entries := by
    rintro parts _ rfl
    refine ⟨keyedMembers parts, fun _ => rfl, rfl, ?_⟩
    exact List.forall₂_map_right_iff.mpr (List.forall₂_same.mpr fun _ _ => ⟨fun _ => rfl, rfl⟩)
  natural_isNothing := by
    rintro k _ rfl -
    rfl
  text_isNothing := by
    rintro s _ rfl
    rfl
  record_isNothing := by
    rintro parts _ rfl
    rfl

namespace Members

/-- A key that is given once has the value that is given for it. -/
theorem get?_ofList {pairs : List (String × Json)} (hkeys : (pairs.map (·.1)).Nodup) {key : String}
    {v : Json} (hv : (key, v) ∈ pairs) : (ofList pairs).get? key = some v := by
  have hall : ∀ (pairs : List (String × Json)) (m : Members), (pairs.map (·.1)).Nodup →
      (key, v) ∈ pairs ∨ (m.get? key = some v ∧ key ∉ pairs.map (·.1)) →
      (pairs.foldl (fun m p => m.insert p.1 p.2) m).get? key = some v := by
    intro pairs
    induction pairs with
    | nil =>
        rintro m - (h | ⟨h, -⟩)
        · cases h
        · exact h
    | cons p rest ih =>
        intro m hkeys h
        obtain ⟨hnew, hrest⟩ := List.nodup_cons.mp hkeys
        refine ih (m.insert p.1 p.2) hrest ?_
        rcases h with h | ⟨h, hmissing⟩
        · rcases List.mem_cons.mp h with rfl | h
          · exact .inr ⟨by rw [get?_insert, if_pos rfl], hnew⟩
          · exact .inl h
        · rw [List.map_cons, List.mem_cons, not_or] at hmissing
          exact .inr ⟨by rw [get?_insert, if_neg (Ne.symm hmissing.1), h], hmissing.2⟩
  exact hall pairs [] hkeys (.inl hv)

end Members

end WebBaseline.Json
