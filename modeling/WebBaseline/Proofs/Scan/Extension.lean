import Mathlib.Data.List.TakeWhile
import WebBaseline.Proofs.Files.Listing
import WebBaseline.Scan.Language

/-!
# Extensions of joined paths

A path that is joined from names has the last name as the name of its file, so
whether it is scanned depends on that name alone.

* `joined_injective` — a joined path determines its names;
* `splitAtLastDot_eq_some_iff` — what precedes and follows the last dot;
* `isSome_ofPath_joined` — the paths that have a language.
-/

namespace WebBaseline

/-- Some names with slashes between them. -/
def joined (names : List String) : String := "/".intercalate names

/-- The extensions of sources, in lower case. -/
def sourceExtensions : List String := ["js", "jsx", "ts", "tsx", "css", "html"]

/-- Whether a name is that of a source: after a dot, which does not come first, it ends in one of
the extensions in any case, and no dot comes later. -/
def IsSourceName (name : String) : Prop :=
  ∃ stem extension, name = stem ++ "." ++ extension ∧ stem ≠ "" ∧ '.' ∉ extension.toList ∧
    Text.lower extension ∈ sourceExtensions

namespace ScanLanguage

/-- The parts of a joined path are its names. -/
theorem pathParts_joined {names : List String} (hne : names ≠ [])
    (hnames : ∀ name ∈ names, IsEntryName name) :
    pathParts (joined names).toList = names.map String.toList := by
  have hslash : ∀ cs ∈ names.map String.toList, '/' ∉ cs := by
    intro cs hcs
    obtain ⟨name, hname, rfl⟩ := List.mem_map.mp hcs
    exact (hnames name hname).no_slash
  rw [pathParts, joined, String.toList_intercalate]
  exact List.splitOn_intercalate '/' hslash (by simpa using hne)

/-- **Joined paths.**  A path that is joined from names of entries determines them. -/
theorem joined_injective {names others : List String} (hne : names ≠ []) (hone : others ≠ [])
    (hnames : ∀ name ∈ names, IsEntryName name) (hothers : ∀ name ∈ others, IsEntryName name)
    (h : joined names = joined others) : names = others := by
  have hparts : names.map String.toList = others.map String.toList := by
    rw [← pathParts_joined hne hnames, h, pathParts_joined hone hothers]
  exact List.map_injective_iff.mpr (fun s t => String.toList_inj.mp) hparts

/-- The name of a file is the last of the names of its path. -/
theorem fileName?_joined {names : List String} {name : String}
    (hnames : ∀ n ∈ names ++ [name], IsEntryName n) :
    fileName? (joined (names ++ [name])).toList = some name.toList := by
  have hkeep : ∀ cs ∈ (names ++ [name]).map String.toList,
      decide (cs ≠ [] ∧ cs ≠ ['.']) = true := by
    intro cs hcs
    obtain ⟨n, hn, rfl⟩ := List.mem_map.mp hcs
    have hn := hnames n hn
    refine decide_eq_true ⟨fun h => hn.ne_empty ?_, fun h => hn.ne_dot ?_⟩
    · exact String.toList_inj.mp h
    · exact String.toList_inj.mp h
  have hdots : name.toList ≠ ['.', '.'] := by
    intro h
    exact (hnames name (by simp)).ne_dots (String.toList_inj.mp h)
  rw [fileName?, pathParts_joined (by simp) hnames, List.filter_eq_self.mpr hkeep, List.map_append,
    List.map_singleton, List.getLast?_append, List.getLast?_singleton]
  simp [hdots]

/-! ### The last dot -/

/-- In characters without a dot none is met. -/
theorem ne_dot_of_not_mem {cs : List Char} (h : '.' ∉ cs) :
    ∀ c ∈ cs.reverse, decide (c ≠ '.') = true := by
  intro c hc
  apply decide_eq_true
  rintro rfl
  exact h (List.mem_reverse.mp hc)

/-- A name without a dot is not split. -/
theorem splitAtLastDot_of_not_mem {cs : List Char} (h : '.' ∉ cs) : splitAtLastDot cs = none := by
  rw [splitAtLastDot, List.takeWhile_eq_self_iff.mpr (ne_dot_of_not_mem h), List.reverse_reverse,
    if_pos rfl]

/-- A name is split at a dot after which none comes. -/
theorem splitAtLastDot_append (before : List Char) {after : List Char} (h : '.' ∉ after) :
    splitAtLastDot (before ++ '.' :: after) = some (before, after) := by
  have htake : (before ++ '.' :: after).reverse.takeWhile (· ≠ '.') = after.reverse := by
    rw [List.reverse_append, List.reverse_cons, List.append_assoc,
      List.takeWhile_append_of_pos (ne_dot_of_not_mem h)]
    simp
  have hlength : (before ++ '.' :: after).length - after.length - 1 = before.length := by
    rw [List.length_append, List.length_cons]
    omega
  have hlonger : ¬ after.length = (before ++ '.' :: after).length := by
    rw [List.length_append, List.length_cons]
    omega
  rw [splitAtLastDot, htake, List.reverse_reverse, if_neg hlonger, hlength, List.take_left]

/-- **The last dot.**  A name is split there, and nowhere if it has none. -/
theorem splitAtLastDot_eq_some_iff (cs before after : List Char) :
    splitAtLastDot cs = some (before, after) ↔ cs = before ++ '.' :: after ∧ '.' ∉ after := by
  constructor
  · intro h
    by_cases hdot : '.' ∈ cs
    · obtain ⟨later, earlier, hcs, hlater⟩ :=
        List.eq_append_cons_of_mem (List.mem_reverse.mpr hdot)
      have hsplit : cs = earlier.reverse ++ '.' :: later.reverse := by
        simpa using congrArg List.reverse hcs
      have hlater : '.' ∉ later.reverse := fun hmem => hlater (List.mem_reverse.mp hmem)
      rw [hsplit, splitAtLastDot_append _ hlater, Option.some.injEq, Prod.mk.injEq] at h
      obtain ⟨rfl, rfl⟩ := h
      exact ⟨hsplit, hlater⟩
    · rw [splitAtLastDot_of_not_mem hdot] at h
      cases h
  · rintro ⟨rfl, hafter⟩
    exact splitAtLastDot_append before hafter

/-- The extension of a path whose file has a name. -/
theorem extension?_eq_some_iff {path name : String}
    (hname : fileName? path.toList = some name.toList) (extension : String) :
    extension? path = some extension ↔
      ∃ stem, name = stem ++ "." ++ extension ∧ stem ≠ "" ∧ '.' ∉ extension.toList := by
  rw [extension?, hname, Option.bind_some]
  constructor
  · intro h
    cases hsplit : splitAtLastDot name.toList with
    | none => simp [hsplit] at h
    | some parts =>
        obtain ⟨before, after⟩ := parts
        obtain ⟨hdots, hafter⟩ := (splitAtLastDot_eq_some_iff _ _ _).mp hsplit
        by_cases hbefore : before = []
        · simp [hsplit, hbefore] at h
        · have hextension : String.ofList after = extension := by
            simpa [hsplit, hbefore] using h
          subst hextension
          refine ⟨String.ofList before, String.toList_inj.mp ?_, ?_, ?_⟩
          · simp [hdots]
          · simpa [String.ext_iff] using hbefore
          · simpa using hafter
  · rintro ⟨stem, rfl, hstem, hextension⟩
    have hchars : (stem ++ "." ++ extension).toList = stem.toList ++ '.' :: extension.toList := by
      simp
    have hstem : stem.toList ≠ [] := fun h => hstem (String.toList_inj.mp h)
    rw [hchars, splitAtLastDot_append _ hextension]
    simp [hstem]

/-- A language belongs to each extension of sources, and to no other. -/
theorem isSome_ofExtension (extension : String) :
    (ofExtension extension).isSome = true ↔ Text.lower extension ∈ sourceExtensions := by
  rw [ofExtension, List.find?_isSome]
  simp [all, extensions, sourceExtensions, or_assoc]

/-- **Which paths have a language.**  Of a joined path the last name decides. -/
theorem isSome_ofPath_joined {names : List String} {name : String}
    (hnames : ∀ n ∈ names ++ [name], IsEntryName n) :
    (ofPath (joined (names ++ [name]))).isSome = true ↔ IsSourceName name := by
  have hextension := extension?_eq_some_iff (fileName?_joined hnames)
  rw [ofPath, Option.isSome_bind, Option.any_eq_true]
  simp only [isSome_ofExtension, hextension]
  constructor
  · rintro ⟨extension, ⟨stem, hname, hstem, hdot⟩, hlower⟩
    exact ⟨stem, extension, hname, hstem, hdot, hlower⟩
  · rintro ⟨stem, extension, hname, hstem, hdot, hlower⟩
    exact ⟨extension, ⟨stem, hname, hstem, hdot⟩, hlower⟩

end ScanLanguage

end WebBaseline
