import WebBaseline.Json.Decoding

/-!
# Members of objects

Objects are kept in ascending order of their keys, each key once, and a record
is read from an object field by field.

* `ascending_ofList` — an object that is built from a list of members has
  ascending keys, so no key occurs twice;
* `readNamed_total` — fields that accept every value make a reader that accepts
  every object without repeated keys;
* `readNamed_part` — a part of a record that depends on one field only is read
  from the member of that name, and no other member has a say in it.
-/

namespace WebBaseline.Json

open Decoding

namespace Members

/-- Whether members are in ascending order of their keys, each key once. -/
def Ascending (m : Members) : Prop := (m.map (·.1)).Pairwise (· < ·)

/-- Inserting a member adds no other. -/
theorem mem_insert {m : Members} {key : String} {v : Json} {p : String × Json}
    (h : p ∈ m.insert key v) : p = (key, v) ∨ p ∈ m := by
  induction m with
  | nil => simpa [insert] using h
  | cons q rest ih =>
      obtain ⟨a, b⟩ := q
      rw [insert] at h
      split at h
      · exact List.mem_cons.mp h
      · split at h
        · exact (List.mem_cons.mp h).imp_right (List.mem_cons_of_mem (a, b))
        · rcases List.mem_cons.mp h with rfl | h
          · exact Or.inr List.mem_cons_self
          · exact (ih h).imp_right (List.mem_cons_of_mem (a, b))

/-- Inserting a member adds its key and no other. -/
theorem mem_keys_insert {m : Members} {key k : String} {v : Json}
    (h : k ∈ (m.insert key v).map (·.1)) : k = key ∨ k ∈ m.map (·.1) := by
  obtain ⟨p, hp, rfl⟩ := List.mem_map.mp h
  rcases mem_insert hp with rfl | hin
  · exact Or.inl rfl
  · exact Or.inr (List.mem_map.mpr ⟨p, hin, rfl⟩)

/-- Inserting a member keeps the order. -/
theorem ascending_insert {m : Members} {key : String} {v : Json} (h : m.Ascending) :
    (m.insert key v).Ascending := by
  induction m with
  | nil => simp [insert, Ascending]
  | cons p rest ih =>
      obtain ⟨a, b⟩ := p
      obtain ⟨hfirst, hrest⟩ := List.pairwise_cons.mp h
      rw [insert]
      split
      · rename_i hlt
        refine List.pairwise_cons.mpr ⟨?_, h⟩
        intro k hk
        rcases List.mem_cons.mp hk with rfl | hk
        · exact hlt
        · exact String.lt_trans hlt (hfirst k hk)
      · rename_i hnlt
        split
        · rename_i heq
          subst heq
          exact h
        · rename_i hne
          refine List.pairwise_cons.mpr ⟨?_, ih hrest⟩
          intro k hk
          rcases mem_keys_insert hk with rfl | hk
          · apply Decidable.byContradiction
            intro hnot
            exact hne (String.le_antisymm (String.not_lt.mp hnot) (String.not_lt.mp hnlt))
          · exact hfirst k hk

/-- An object that is built from a list of members has ascending keys. -/
theorem ascending_ofList (pairs : List (String × Json)) : (ofList pairs).Ascending := by
  have hstep : ∀ (pairs : List (String × Json)) (m : Members), m.Ascending →
      (pairs.foldl (fun m p => m.insert p.1 p.2) m).Ascending := by
    intro pairs
    induction pairs with
    | nil => exact fun m hm => hm
    | cons p rest ih => exact fun m hm => ih _ (ascending_insert hm)
  exact hstep pairs [] List.Pairwise.nil

/-- The members of an object are among those it was built from. -/
theorem mem_ofList {pairs : List (String × Json)} {p : String × Json}
    (h : p ∈ ofList pairs) : p ∈ pairs := by
  have hstep : ∀ (pairs : List (String × Json)) (m : Members),
      p ∈ pairs.foldl (fun m q => m.insert q.1 q.2) m → p ∈ m ∨ p ∈ pairs := by
    intro pairs
    induction pairs with
    | nil => exact fun m hm => Or.inl hm
    | cons q rest ih =>
        intro m hm
        rcases ih _ hm with hin | hin
        · rcases mem_insert hin with rfl | hin
          · exact Or.inr List.mem_cons_self
          · exact Or.inl hin
        · exact Or.inr (List.mem_cons_of_mem q hin)
  exact (hstep pairs [] h).resolve_left List.not_mem_nil

/-- An object has nothing under a key that it does not list. -/
theorem get?_eq_none {m : Members} {key : String} (h : key ∉ m.map (·.1)) :
    m.get? key = none := by
  induction m with
  | nil => rfl
  | cons p rest ih =>
      obtain ⟨a, b⟩ := p
      simp only [List.map_cons, List.mem_cons, not_or] at h
      rw [get?, if_neg (Ne.symm h.1), ih h.2]

/-- Ascending keys are distinct. -/
theorem Ascending.nodup {m : Members} (h : m.Ascending) : (m.map (·.1)).Nodup :=
  h.imp String.ne_of_lt

end Members

/-! ### Reading records from members -/

variable {R β : Type} {fields : List (Field Json Fault R)} {node : Json}

/-- What the reader does with one member. -/
theorem readNamed_member (key : String) (v : Json) (rest : Members) (given : List String) (r : R) :
    format.readNamed fields false node (keyedMembers ((key, v) :: rest)) given r =
      match fields.find? (·.name == key) with
      | none => format.readNamed fields false node (keyedMembers rest) given r
      | some field =>
          if given.contains key then .error (.repeatedField key)
          else match field.read v with
            | .error e => .error e
            | .ok change =>
                format.readNamed fields false node (keyedMembers rest) (key :: given)
                  (change r) := by
  have hname : format.text "field identifier" (text key) = .ok key := rfl
  rw [keyedMembers, List.map_cons, Format.readNamed, hname]
  simp only [bind, Except.bind]
  cases hfind : fields.find? (·.name == key) with
  | none => rfl
  | some field =>
      dsimp only
      cases field.read v <;> rfl

/-- Fields that accept every value make a reader that accepts every object
without repeated keys. -/
theorem readNamed_total (node : Json)
    (htotal : ∀ field ∈ fields, ∀ v, ∃ change, field.read v = .ok change)
    {m : Members} (hkeys : (m.map (·.1)).Nodup) {given : List String}
    (hgiven : ∀ k ∈ given, k ∉ m.map (·.1)) (r : R) :
    ∃ outcome, format.readNamed fields false node (keyedMembers m) given r = .ok outcome := by
  induction m generalizing given r with
  | nil => exact ⟨(given, r), rfl⟩
  | cons p rest ih =>
      obtain ⟨key, v⟩ := p
      obtain ⟨hnew, hrest⟩ := List.nodup_cons.mp hkeys
      have hgivenRest : ∀ k ∈ given, k ∉ rest.map (·.1) := by
        intro k hk hmem
        exact hgiven k hk (List.mem_cons_of_mem _ hmem)
      cases hfind : fields.find? (·.name == key) with
      | none =>
          obtain ⟨outcome, h⟩ := ih hrest hgivenRest r
          exact ⟨outcome, by simpa [readNamed_member, hfind] using h⟩
      | some field =>
          obtain ⟨change, hread⟩ := htotal field (List.mem_of_find?_eq_some hfind) v
          have hfresh : key ∉ given := fun hk => hgiven key hk (by simp)
          have hnext : ∀ k ∈ key :: given, k ∉ rest.map (·.1) := by
            intro k hk
            rcases List.mem_cons.mp hk with rfl | hk
            · exact hnew
            · exact hgivenRest k hk
          obtain ⟨outcome, h⟩ := ih hrest hnext (change r)
          exact ⟨outcome, by simpa [readNamed_member, hfind, hfresh, hread] using h⟩

/-- **One field, one part.**  A part of a record that only the field `key`
changes, and changes to what it makes of its value, is read from the member of
that name, whatever the other members are; without the member it stays as it
was. -/
theorem readNamed_part (part : R → β) (key : String) (meaning : Json → β)
    (hmem : ∃ field ∈ fields, field.name = key)
    (hpart : ∀ field ∈ fields, ∀ v change, field.read v = .ok change →
      ∀ r, part (change r) = if field.name = key then meaning v else part r)
    {m : Members} (hkeys : (m.map (·.1)).Nodup) {given : List String} {r : R}
    {outcome : List String × R}
    (h : format.readNamed fields false node (keyedMembers m) given r = .ok outcome) :
    part outcome.2 = ((m.get? key).map meaning).getD (part r) := by
  induction m generalizing given r with
  | nil =>
      obtain rfl : (given, r) = outcome := Except.ok.inj h
      rfl
  | cons p rest ih =>
      obtain ⟨k, v⟩ := p
      obtain ⟨hnew, hrest⟩ := List.nodup_cons.mp hkeys
      cases hfind : fields.find? (·.name == k) with
      | none =>
          have hne : k ≠ key := by
            rintro rfl
            obtain ⟨field, hfield, hname⟩ := hmem
            have hnone := List.find?_eq_none.mp hfind field hfield
            simp [hname] at hnone
          have hstep : format.readNamed fields false node (keyedMembers rest) given r =
              .ok outcome := by
            simpa [readNamed_member, hfind] using h
          rw [ih hrest hstep, Members.get?, if_neg hne]
      | some field =>
          have hfield : field ∈ fields := List.mem_of_find?_eq_some hfind
          have hname : field.name = k := by simpa using List.find?_some hfind
          by_cases hgiven : k ∈ given
          · simp [readNamed_member, hfind, hgiven] at h
          · cases hread : field.read v with
            | error e => simp [readNamed_member, hfind, hgiven, hread] at h
            | ok change =>
                have hstep : format.readNamed fields false node (keyedMembers rest) (k :: given)
                    (change r) = .ok outcome := by
                  simpa [readNamed_member, hfind, hgiven, hread] using h
                have hchange := hpart field hfield v change hread r
                rw [hname] at hchange
                rw [ih hrest hstep, Members.get?, hchange]
                by_cases hk : k = key
                · subst hk
                  have hgone : Members.get? k rest = none := Members.get?_eq_none hnew
                  simp [hgone]
                · simp [hk]

end WebBaseline.Json
