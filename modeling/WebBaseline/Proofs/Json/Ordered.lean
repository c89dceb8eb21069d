import WebBaseline.Json.Reader
import WebBaseline.Proofs.Json.Members

/-!
# The order of members

Objects list their members in ascending order of their keys, each key once.
`Ordered` says so for every object inside a value.

* `yields_number`, `yields_value` — what the reader makes of a number, and of
  any value;
* `ordered_of_parse` — every value that is read from a text is ordered.
-/

namespace WebBaseline.Json

/-- Whether every object in a value lists its members in order, each key once. -/
inductive Ordered : Json → Prop where
  | null : Ordered .null
  | bool (b : Bool) : Ordered (.bool b)
  | integer (i : Int) : Ordered (.integer i)
  | double (x : Binary64) : Ordered (.double x)
  | text (s : String) : Ordered (.text s)
  | array {items : List Json} (hitems : ∀ v ∈ items, Ordered v) : Ordered (.array items)
  | object {members : Members} (hkeys : members.Ascending)
      (hmembers : ∀ m ∈ members, Ordered m.2) : Ordered (.object members)

namespace Ordered

attribute [simp] null bool integer double text

@[simp] theorem array_iff {items : List Json} :
    Ordered (.array items) ↔ ∀ v ∈ items, Ordered v :=
  ⟨fun | .array hitems => hitems, .array⟩

@[simp] theorem object_iff {m : Members} :
    Ordered (.object m) ↔ m.Ascending ∧ ∀ p ∈ m, Ordered p.2 :=
  ⟨fun | .object hkeys hmembers => ⟨hkeys, hmembers⟩, fun h => .object h.1 h.2⟩

end Ordered

/-- What an object has under a key is one of its members. -/
theorem Members.mem_of_get? {m : Members} {key : String} {v : Json} (h : m.get? key = some v) :
    (key, v) ∈ m := by
  induction m with
  | nil => cases h
  | cons p rest ih =>
      obtain ⟨k, w⟩ := p
      rw [get?] at h
      split at h
      · rename_i heq
        obtain rfl := Option.some.inj h
        exact heq ▸ List.mem_cons_self
      · exact List.mem_cons_of_mem (k, w) (ih h)

/-- The values of an ordered object are ordered. -/
theorem Ordered.get? {m : Members} {key : String} {v : Json} (h : Ordered (.object m))
    (hget : m.get? key = some v) : Ordered v :=
  (Ordered.object_iff.mp h).2 (key, v) (Members.mem_of_get? hget)

/-! ### What is read -/

namespace Reader

/-- Whether a value that is read, if one is, is ordered. -/
def Yields : Outcome Json → Prop
  | .ok (v, _) => v.Ordered
  | .error _ => True

/-- A number from its parts. -/
theorem yields_fromParts (strict negative : Bool) (significand : Nat) (exponent : Int)
    (rest : List Char) : Yields (fromParts strict negative significand exponent rest) := by
  unfold fromParts
  split
  · exact .double _
  · split
    · trivial
    · exact .null

/-- A number with an exponent. -/
theorem yields_exponentDigits (strict negative : Bool) (significand : Nat) (start : Int)
    (down : Bool) (value : Nat) (cs : List Char) :
    Yields (exponentDigits strict negative significand start down value cs) := by
  induction cs generalizing value with
  | nil => exact yields_fromParts ..
  | cons c rest ih =>
      rw [exponentDigits]
      split
      · dsimp only
        split
        · split
          · trivial
          · exact .double _
        · exact ih _
      · exact yields_fromParts ..

theorem yields_exponentPart (strict negative : Bool) (significand : Nat) (start : Int)
    (cs : List Char) : Yields (exponentPart strict negative significand start cs) := by
  unfold exponentPart
  dsimp only
  split
  · trivial
  · split
    · exact yields_exponentDigits ..
    · trivial

theorem yields_afterDigits (strict negative : Bool) (significand : Nat) (exponent : Int)
    (cs : List Char) : Yields (afterDigits strict negative significand exponent cs) := by
  unfold afterDigits
  split
  · exact yields_exponentPart ..
  · exact yields_exponentPart ..
  · exact yields_fromParts ..

/-- A number with a fraction. -/
theorem yields_fractionDigits (strict negative : Bool) (significand : Nat) (start : Int)
    (count : Nat) (cs : List Char) :
    Yields (fractionDigits strict negative significand start count cs) := by
  induction cs generalizing significand count with
  | nil =>
      rw [fractionDigits]
      split
      · trivial
      · exact yields_fromParts ..
  | cons c rest ih =>
      rw [fractionDigits]
      split
      · dsimp only
        split
        · exact yields_afterDigits ..
        · exact ih _ _
      · split
        · trivial
        · exact yields_afterDigits ..

theorem yields_afterInteger (strict negative : Bool) (value : Nat) (cs : List Char) :
    Yields (afterInteger strict negative value cs) := by
  unfold afterInteger
  split
  · exact yields_fractionDigits ..
  · exact yields_exponentPart ..
  · exact yields_exponentPart ..
  · split
    · exact .integer _
    · split
      · exact yields_fromParts ..
      · exact .integer _

/-- An integer. -/
theorem yields_integerDigits (strict negative : Bool) (value : Nat) (cs : List Char) :
    Yields (integerDigits strict negative value cs) := by
  induction cs generalizing value with
  | nil => exact yields_afterInteger ..
  | cons c rest ih =>
      rw [integerDigits]
      split
      · dsimp only
        split
        · split
          · exact yields_fractionDigits ..
          · exact yields_afterDigits ..
        · exact ih _
      · exact yields_afterInteger ..

/-- **Numbers.**  Whatever is read as a number has no members. -/
theorem yields_number (strict negative : Bool) (cs : List Char) :
    Yields (number strict negative cs) := by
  unfold number
  split
  · trivial
  · split
    · split
      · trivial
      · exact yields_afterInteger ..
    · exact yields_afterInteger ..
  · split
    · exact yields_integerDigits ..
    · trivial

/-- A word gives the value that it stands for. -/
theorem yields_word {v : Json} (hv : v.Ordered) (letters cs : List Char) :
    Yields (word letters v cs) := by
  induction letters generalizing cs with
  | nil => exact hv
  | cons a letters ih =>
      cases cs with
      | nil => trivial
      | cons c rest =>
          rw [word]
          split
          · exact ih rest
          · trivial

/-- **Values.**  With any fuel, what is read is ordered: a value, the items of
an array after ordered ones, and the members of an object after ordered ones. -/
theorem yields_value (strict : Bool) (fuel : Nat) :
    (∀ depth cs, Yields (value strict fuel depth cs)) ∧
    (∀ depth read cs, (∀ v ∈ read, v.Ordered) → Yields (items strict fuel depth read cs)) ∧
    ∀ depth read first cs, read.Ascending → (∀ m ∈ read, m.2.Ordered) →
      Yields (members strict fuel depth read first cs) := by
  induction fuel with
  | zero => exact ⟨fun _ _ => trivial, fun _ _ _ _ => trivial, fun _ _ _ _ _ _ => trivial⟩
  | succ fuel ih =>
      obtain ⟨hvalue, hitems, hmembers⟩ := ih
      refine ⟨?_, ?_, ?_⟩
      · intro depth cs
        rw [value.eq_def]
        dsimp only
        split
        · trivial
        · exact yields_word .null ..
        · exact yields_word (.bool true) ..
        · exact yields_word (.bool false) ..
        · exact yields_number ..
        · split
          · trivial
          · exact .text _
        · split
          · trivial
          · exact hitems _ _ _ (fun v hv => absurd hv List.not_mem_nil)
        · split
          · trivial
          · exact hmembers _ _ _ _ List.Pairwise.nil (fun m hm => absurd hm List.not_mem_nil)
        · split
          · exact yields_number ..
          · trivial
      · intro depth read cs hread
        rw [items.eq_def]
        dsimp only
        split
        · trivial
        · exact .array fun v hv => hread v (List.mem_reverse.mp hv)
        · split
          · trivial
          · rename_i rest _
            have hnext := hvalue depth rest
            split
            · trivial
            · rename_i v rest' hok
              rw [hok] at hnext
              refine hitems _ _ _ fun w hw => ?_
              rcases List.mem_cons.mp hw with rfl | hw
              · exact hnext
              · exact hread w hw
      · intro depth read first cs hkeys hread
        rw [members.eq_def]
        dsimp only
        split
        · trivial
        · exact .object hkeys hread
        · split
          · trivial
          · split
            · trivial
            · rename_i key rest _
              have hnext := hvalue depth rest
              split
              · trivial
              · rename_i v rest' hok
                rw [hok] at hnext
                refine hmembers _ _ _ _ (Members.ascending_insert hkeys) fun m hm => ?_
                rcases Members.mem_insert hm with rfl | hm
                · exact hnext
                · exact hread m hm
          · trivial

end Reader

/-- **Texts.**  Every value that is read from a text is ordered. -/
theorem ordered_of_parse {text : String} {v : Json} (h : parse text = .ok v) : v.Ordered := by
  have hyields := (Reader.yields_value true (2 * text.toList.length + 2)).1
    Reader.maxDepth text.toList
  unfold parse at h
  dsimp only at h
  split at h
  · cases h
  · rename_i w rest hok
    rw [hok] at hyields
    split at h
    · obtain rfl := Except.ok.inj h
      exact hyields
    · split at h
      · cases h
      · rename_i hfail
        cases hfail

end WebBaseline.Json
