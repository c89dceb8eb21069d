import Mathlib.Data.List.Nodup
import WebBaseline.Files.Tree

/-!
# Directories and their listings

The entries of a directory have distinct names, and the order in which they are
listed has no meaning.

* `lookup_eq_some_iff_mem` — a name leads to the entry that is listed under it;
* `FileTree.Proper` — trees whose names are those of entries;
* `Relisted.get?_file_iff` — the same files are found in whatever order
  directories are listed.
-/

namespace WebBaseline

/-- Whether a text can be the name of an entry: it is not empty, has no slash in it, and is not
one of the two names that every directory has of its own. -/
structure IsEntryName (name : String) : Prop where
  ne_empty : name ≠ ""
  no_slash : '/' ∉ name.toList
  ne_dot : name ≠ "."
  ne_dots : name ≠ ".."

instance (name : String) : Decidable (IsEntryName name) :=
  decidable_of_iff (name ≠ "" ∧ '/' ∉ name.toList ∧ name ≠ "." ∧ name ≠ "..")
    ⟨fun ⟨hempty, hslash, hdot, hdots⟩ => ⟨hempty, hslash, hdot, hdots⟩,
      fun ⟨hempty, hslash, hdot, hdots⟩ => ⟨hempty, hslash, hdot, hdots⟩⟩

namespace FileTree

/-- Whether the names in a tree are those of entries, distinct in each directory. -/
inductive Proper : FileTree → Prop where
  | file (content : Content) : Proper (.file content)
  | link (target : String) : Proper (.link target)
  | directory {entries : List (String × FileTree)} (hdistinct : (entries.map (·.1)).Nodup)
      (hnames : ∀ e ∈ entries, IsEntryName e.1) (hbelow : ∀ e ∈ entries, Proper e.2) :
      Proper (.directory entries)

/-- Whether a tree is another one, some directories of which list their entries in other
orders. -/
inductive Relisted : FileTree → FileTree → Prop where
  | refl (t : FileTree) : Relisted t t
  | trans {t u v : FileTree} (hfirst : Relisted t u) (hsecond : Relisted u v) : Relisted t v
  /-- The entries of a directory are listed in another order. -/
  | reorder {entries listed : List (String × FileTree)} (hperm : entries.Perm listed) :
      Relisted (.directory entries) (.directory listed)
  /-- What is below an entry is listed in another order. -/
  | inside {t u : FileTree} (before after : List (String × FileTree)) (name : String)
      (hbelow : Relisted t u) :
      Relisted (.directory (before ++ (name, t) :: after)) (.directory (before ++ (name, u) :: after))

/-! ### Names -/

/-- With distinct names, a name leads to the entry that is listed under it. -/
theorem lookup_eq_some_iff_mem {entries : List (String × FileTree)}
    (hdistinct : (entries.map (·.1)).Nodup) (name : String) (t : FileTree) :
    entries.lookup name = some t ↔ (name, t) ∈ entries := by
  induction entries with
  | nil => simp
  | cons e rest ih =>
      obtain ⟨n, u⟩ := e
      obtain ⟨hfirst, hrest⟩ := List.nodup_cons.mp hdistinct
      rw [List.lookup_cons, List.mem_cons, Prod.mk.injEq]
      by_cases hname : name = n
      · subst hname
        have hnew : (name, t) ∉ rest := fun hmem => hfirst (List.mem_map.mpr ⟨_, hmem, rfl⟩)
        simp [hnew, eq_comm]
      · have hother : (name == n) = false := beq_eq_false_iff_ne.mpr hname
        simp [hother, hname, ih hrest]

/-- A tree of a name below a directory is found through the entry of the first name. -/
theorem get?_directory_cons (entries : List (String × FileTree)) (name : String)
    (rest : List String) :
    (directory entries).get? (name :: rest) = (entries.lookup name).bind (get? rest) := rfl

/-- What is found below a directory is found through one of its entries. -/
theorem get?_directory_eq_some_iff {entries : List (String × FileTree)}
    (hdistinct : (entries.map (·.1)).Nodup) (name : String) (rest : List String) (t : FileTree) :
    (directory entries).get? (name :: rest) = some t ↔
      ∃ u, (name, u) ∈ entries ∧ u.get? rest = some t := by
  rw [get?_directory_cons, Option.bind_eq_some_iff]
  simp only [lookup_eq_some_iff_mem hdistinct]

/-! ### Other orders -/

/-- A replaced entry keeps its name. -/
theorem names_replaced (before after : List (String × FileTree)) (name : String)
    (t u : FileTree) :
    (before ++ (name, t) :: after).map (·.1) = (before ++ (name, u) :: after).map (·.1) := by
  simp

/-- In a directory with distinct names an entry's name occurs once. -/
theorem ne_of_mem_others {before after : List (String × FileTree)} {name : String}
    {t : FileTree} (hdistinct : ((before ++ (name, t) :: after).map (·.1)).Nodup)
    {e : String × FileTree} (he : e ∈ before ∨ e ∈ after) : e.1 ≠ name := by
  rintro rfl
  rw [List.map_append, List.map_cons, List.nodup_middle, List.nodup_cons] at hdistinct
  apply hdistinct.1
  rw [← List.map_append]
  exact List.mem_map.mpr ⟨e, List.mem_append.mpr he, rfl⟩

/-- The order of listings has no say in whether names are those of entries. -/
theorem Relisted.proper {t u : FileTree} (h : Relisted t u) (ht : Proper t) : Proper u := by
  induction h with
  | refl t => exact ht
  | trans _ _ ihfirst ihsecond => exact ihsecond (ihfirst ht)
  | reorder hperm =>
      obtain _ | _ | ⟨hdistinct, hnames, hbelow⟩ := ht
      exact .directory ((hperm.map _).nodup_iff.mp hdistinct)
        (fun e he => hnames e (hperm.mem_iff.mpr he)) fun e he => hbelow e (hperm.mem_iff.mpr he)
  | inside before after name _ ih =>
      obtain _ | _ | ⟨hdistinct, hnames, hbelow⟩ := ht
      rw [names_replaced before after name _ _] at hdistinct
      simp only [List.forall_mem_append, List.forall_mem_cons] at hnames hbelow
      refine .directory hdistinct ?_ ?_
      · simpa only [List.forall_mem_append, List.forall_mem_cons] using hnames
      · simp only [List.forall_mem_append, List.forall_mem_cons]
        exact ⟨hbelow.1, ih hbelow.2.1, hbelow.2.2⟩

/-- **Other orders.**  Names lead to the same files in whatever order directories are listed. -/
theorem Relisted.get?_file_iff {t u : FileTree} (h : Relisted t u) (ht : Proper t)
    (names : List String) (content : Content) :
    t.get? names = some (.file content) ↔ u.get? names = some (.file content) := by
  induction h generalizing names with
  | refl t => rfl
  | trans hfirst _ ihfirst ihsecond =>
      exact (ihfirst ht names).trans (ihsecond (hfirst.proper ht) names)
  | reorder hperm =>
      obtain _ | _ | ⟨hdistinct, -, -⟩ := ht
      cases names with
      | nil => simp [get?]
      | cons name rest =>
          rw [get?_directory_eq_some_iff hdistinct,
            get?_directory_eq_some_iff ((hperm.map _).nodup_iff.mp hdistinct)]
          simp only [hperm.mem_iff]
  | @inside t u before after name _ ih =>
      obtain _ | _ | ⟨hdistinct, -, hproper⟩ := ht
      have ht : Proper t := hproper (name, t) (by simp)
      cases names with
      | nil => simp [get?]
      | cons first rest =>
          have hdistinct' := hdistinct
          rw [names_replaced before after name t u] at hdistinct'
          rw [get?_directory_eq_some_iff hdistinct, get?_directory_eq_some_iff hdistinct']
          by_cases hfirst : first = name
          · -- The name leads into the entry below which the order differs.
            subst hfirst
            have hothers : ∀ v, (first, v) ∉ before ∧ (first, v) ∉ after := fun v =>
              ⟨fun hv => ne_of_mem_others hdistinct (Or.inl hv) rfl,
                fun hv => ne_of_mem_others hdistinct (Or.inr hv) rfl⟩
            simp [hothers, ih ht rest]
          · simp [hfirst]

end FileTree

end WebBaseline
