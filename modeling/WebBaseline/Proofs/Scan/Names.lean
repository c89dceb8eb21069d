import Mathlib.Data.List.Nodup
import WebBaseline.Scan.NameTable

/-!
# Look-ups in tables of names

* `fragment?_eq_some_iff` — the fragment of a name is that of its entry;
* `fragment?_insert` — a new entry replaces the earlier one of its name and
  leaves all others alone;
* `fragment?_withExtras` — further names take precedence over the built-in ones;
* `ofList_entries` — a table is made again from its entries.
-/

namespace WebBaseline.NameTable

/-- The names of a table are distinct. -/
theorem nodup_names (t : NameTable) : (t.entries.map (·.1)).Nodup := by
  apply List.Pairwise.imp _ t.ascending
  intro a b hlt heq
  subst heq
  exact String.lt_irrefl a hlt

/-- The fragment of a name is that of its entry. -/
theorem fragment?_eq_some_iff (t : NameTable) {name fragment : String} :
    t.fragment? name = some fragment ↔ (name, fragment) ∈ t.entries := by
  have hname : ∀ e, t.entries.find? (·.1 == name) = some e → e ∈ t.entries ∧ e.1 = name :=
    fun e he => ⟨List.mem_of_find?_eq_some he, by simpa using List.find?_some he⟩
  rw [fragment?, Option.map_eq_some_iff]
  constructor
  · rintro ⟨e, he, rfl⟩
    obtain ⟨hmem, rfl⟩ := hname e he
    exact hmem
  · intro hmem
    have hsome : (t.entries.find? (·.1 == name)).isSome :=
      List.find?_isSome.mpr ⟨_, hmem, beq_self_eq_true name⟩
    obtain ⟨e, he⟩ := Option.isSome_iff_exists.mp hsome
    obtain ⟨hother, hsame⟩ := hname e he
    -- Names are distinct, so the first entry of the name is the given one.
    obtain rfl : e = (name, fragment) := List.inj_on_of_nodup_map t.nodup_names hother hmem hsame
    exact ⟨_, he, rfl⟩

/-- The first entry of a name after an insertion. -/
theorem find?_insertInto (name fragment n : String) (entries : List (String × String)) :
    (insertInto name fragment entries).find? (·.1 == n) =
      if name = n then some (name, fragment) else entries.find? (·.1 == n) := by
  induction entries with
  | nil => by_cases hname : name = n <;> simp [insertInto, hname]
  | cons e rest ih =>
      obtain ⟨m, g⟩ := e
      rw [insertInto]
      split
      · by_cases hname : name = n <;> simp [hname]
      · split
        · rename_i heq
          subst heq
          by_cases hname : name = n <;> simp [hname]
        · rename_i hne
          by_cases hm : m = n
          · have hname : name ≠ n := fun h => hne (h.trans hm.symm)
            simp [hm, hname]
          · simp [hm, ih]

/-- A new entry replaces the earlier one of its name and leaves all others alone. -/
theorem fragment?_insert (t : NameTable) (name fragment n : String) :
    (t.insert name fragment).fragment? n = if name = n then some fragment else t.fragment? n := by
  rw [fragment?, insert, find?_insertInto]
  split <;> rfl

/-- Among entries with distinct names, those that are inserted later do not
replace each other. -/
theorem fragment?_insertAll {entries : List (String × String)}
    (hnames : (entries.map (·.1)).Nodup) (t : NameTable) (n : String) :
    (entries.foldl (fun t e => t.insert e.1 e.2) t).fragment? n =
      ((entries.find? (·.1 == n)).map (·.2)).or (t.fragment? n) := by
  induction entries generalizing t with
  | nil => rfl
  | cons e rest ih =>
      have ⟨hfirst, hrest⟩ := List.nodup_cons.mp hnames
      rw [List.foldl_cons, ih hrest, fragment?_insert, List.find?_cons]
      by_cases he : e.1 = n
      · have hnone : rest.find? (·.1 == n) = none := by
          rw [List.find?_eq_none]
          intro p hp hpn
          exact hfirst (List.mem_map.mpr ⟨p, hp, (beq_iff_eq.mp hpn).trans he.symm⟩)
        simp [he, hnone]
      · have hother : (e.1 == n) = false := beq_eq_false_iff_ne.mpr he
        rw [hother, if_neg he]

/-- **Further names take precedence.**  A name of the extras has their
fragment, and every other name the built-in one. -/
theorem fragment?_withExtras (extras : NameTable) (n : String) :
    (withExtras extras.entries).fragment? n = (extras.fragment? n).or (builtIn.fragment? n) :=
  fragment?_insertAll extras.nodup_names builtIn n

/-! ### Entries in order -/

/-- An entry whose name comes after all others is inserted at the end. -/
theorem insertInto_of_forall_lt {name : String} (fragment : String)
    {entries : List (String × String)} (h : ∀ e ∈ entries, e.1 < name) :
    insertInto name fragment entries = entries ++ [(name, fragment)] := by
  induction entries with
  | nil => rfl
  | cons e rest ih =>
      have ⟨hfirst, hrest⟩ := List.forall_mem_cons.mp h
      rw [insertInto, if_neg (String.lt_asymm hfirst), if_neg (String.ne_of_lt hfirst).symm, ih hrest,
        List.cons_append]

/-- Entries in the order of their names are inserted one after the other at the end. -/
theorem entries_insertAll (t : NameTable) {rest : List (String × String)}
    (h : AscendingNames (t.entries ++ rest)) :
    (rest.foldl (fun t e => t.insert e.1 e.2) t).entries = t.entries ++ rest := by
  induction rest generalizing t with
  | nil => rw [List.foldl_nil, List.append_nil]
  | cons e rest ih =>
      have hbefore : ∀ d ∈ t.entries, d.1 < e.1 := by
        intro d hd
        rw [AscendingNames, List.map_append, List.pairwise_append] at h
        exact h.2.2 d.1 (List.mem_map_of_mem hd) e.1 (List.mem_map_of_mem List.mem_cons_self)
      have hinsert : (t.insert e.1 e.2).entries = t.entries ++ [e] :=
        insertInto_of_forall_lt e.2 hbefore
      rw [List.foldl_cons, ih, hinsert, List.append_assoc, List.singleton_append]
      rwa [hinsert, List.append_assoc, List.singleton_append]

/-- **A table again.**  It is made from its entries. -/
theorem ofList_entries (t : NameTable) : ofList t.entries = t :=
  ext (entries_insertAll empty t.ascending)

end WebBaseline.NameTable
