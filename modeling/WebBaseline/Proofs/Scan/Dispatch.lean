import WebBaseline.Proofs.Scan.Discovery
import WebBaseline.Proofs.Scan.Languages

/-!
# The extension that decides

Two decisions go by what follows a dot.  The language of a file is that of the extension of its
name, where a dot at the front does not count; the grammar of a script goes by the last dot of the
whole path, wherever that is.  If the parts of a path are names, and the file has a language, both
look at the same dot.

* `ProperParts`, `properParts_of_mem_sources` — paths whose parts are names, such as those of the
  sources of a directory;
* `ofExtension_eq_some_iff` — an extension has at most one language;
* `exists_append_of_getLast?` — a path ends in its last part;
* `dispatch_by_extension` — both decisions, for every such path.
-/

namespace WebBaseline

namespace ScanLanguage

/-! ### Parts of paths -/

/-- Whether the parts of a path are names: none is empty, and none is one of the two names that
every directory has of its own. -/
def ProperParts (path : List Char) : Prop :=
  ∀ part ∈ pathParts path, part ≠ [] ∧ part ≠ ['.'] ∧ part ≠ ['.', '.']

instance (path : List Char) : Decidable (ProperParts path) :=
  inferInstanceAs
    (Decidable (∀ part ∈ pathParts path, part ≠ [] ∧ part ≠ ['.'] ∧ part ≠ ['.', '.']))

/-- The parts of a path that is joined from names are names. -/
theorem properParts_joined {names : List String} (hne : names ≠ [])
    (hnames : ∀ name ∈ names, IsEntryName name) : ProperParts (joined names).toList := by
  intro part hpart
  rw [pathParts_joined hne hnames] at hpart
  obtain ⟨name, hname, rfl⟩ := List.mem_map.mp hpart
  have hentry := hnames name hname
  refine ⟨fun h => hentry.ne_empty ?_, fun h => hentry.ne_dot ?_, fun h => hentry.ne_dots ?_⟩
  · exact String.toList_inj.mp h
  · exact String.toList_inj.mp h
  · exact String.toList_inj.mp h

/-- So are those of the paths of all sources that are found in a directory. -/
theorem properParts_of_mem_sources {settings : WorkspaceSettings}
    {entries : List (String × FileTree)} (hproper : FileTree.Proper (.directory entries))
    {file : SourceFile} (hfile : file ∈ Workspace.sources settings entries) :
    ProperParts file.path.toList := by
  obtain ⟨names, hholds⟩ := (Workspace.mem_sources hproper file).mp hfile
  have hnames := Workspace.isEntryName_of_get? hproper hholds.reached.found
  obtain ⟨before, last, rfl⟩ := hholds.reached.exists_last
  rw [hholds.path_eq]
  exact properParts_joined (by simp) hnames

/-- What is joined with separators ends in its last part. -/
theorem exists_append_of_intercalate (separator : List Char) (parts : List (List Char))
    (last : List Char) : ∃ before, separator.intercalate (parts ++ [last]) = before ++ last := by
  induction parts with
  | nil => exact ⟨[], List.intercalate_singleton⟩
  | cons part rest ih =>
      obtain ⟨before, hbefore⟩ := ih
      refine ⟨part ++ separator ++ before, ?_⟩
      rw [List.cons_append, List.intercalate_cons_of_ne_nil (by simp), hbefore]
      simp only [List.append_assoc]

/-- A path ends in its last part. -/
theorem exists_append_of_getLast? {path name : List Char}
    (hname : (pathParts path).getLast? = some name) : ∃ before, path = before ++ name := by
  obtain ⟨parts, hparts⟩ := List.getLast?_eq_some_iff.mp hname
  obtain ⟨before, hbefore⟩ := exists_append_of_intercalate ['/'] parts name
  refine ⟨before, ?_⟩
  rw [← hbefore, ← hparts]
  exact (List.intercalate_splitOn '/').symm

/-- If the parts of a path are names, the last is that of its file. -/
theorem fileName?_of_properParts {path name : List Char} (hproper : ProperParts path)
    (hname : (pathParts path).getLast? = some name) : fileName? path = some name := by
  have hkept : (pathParts path).filter (fun p => p ≠ [] ∧ p ≠ ['.']) = pathParts path := by
    rw [List.filter_eq_self]
    intro part hpart
    obtain ⟨hempty, hdot, -⟩ := hproper part hpart
    exact decide_eq_true ⟨hempty, hdot⟩
  have hdots := (hproper name (List.mem_of_getLast? hname)).2.2
  rw [fileName?, hkept, hname]
  exact if_neg hdots

/-! ### The two decisions -/

/-- The languages of extensions. -/
theorem ofExtension_eq_some_iff {extension : String} {language : ScanLanguage} :
    ofExtension extension = some language ↔ Text.lower extension ∈ language.extensions := by
  constructor
  · intro h
    rw [ofExtension] at h
    have hcontains := List.find?_some h
    exact List.contains_iff_mem.mp hcontains
  · intro h
    cases language with
    | script => exact List.find?_cons_of_pos (List.contains_iff_mem.mpr h)
    | style =>
        rw [ofExtension, List.mem_singleton.mp h]
        decide
    | markup =>
        rw [ofExtension, List.mem_singleton.mp h]
        decide

/-- Whether a name ends in an extension: after a dot that does not come first, and no dot in it. -/
def EndsIn (name extension : String) : Prop :=
  ∃ stem, name = stem ++ "." ++ extension ∧ stem ≠ "" ∧ '.' ∉ extension.toList

section Path

variable {path name extension : String} (hproper : ProperParts path.toList)
  (hname : (pathParts path.toList).getLast? = some name.toList)

include hproper hname

/-- The extension of a path is the one in which its last part ends. -/
theorem extension?_eq_some_iff_endsIn : extension? path = some extension ↔ EndsIn name extension :=
  extension?_eq_some_iff (fileName?_of_properParts hproper hname) extension

/-- The language is that of the extension in which the last part ends. -/
theorem ofPath_eq_some_iff (hends : EndsIn name extension) {language : ScanLanguage} :
    ofPath path = some language ↔ Text.lower extension ∈ language.extensions := by
  rw [ofPath, (extension?_eq_some_iff_endsIn hproper hname).mpr hends, Option.bind_some,
    ofExtension_eq_some_iff]

/-- There is none if the last part ends in no extension. -/
theorem ofPath_eq_none (hends : ∀ extension, ¬ EndsIn name extension) : ofPath path = none := by
  have hextension : extension? path = none := by
    rw [Option.eq_none_iff_forall_ne_some]
    intro extension h
    exact hends extension ((extension?_eq_some_iff_endsIn hproper hname).mp h)
  rw [ofPath, hextension, Option.bind_none]

omit hproper in
/-- The grammar goes by the same extension, whatever comes before the last part. -/
theorem isPlainTyped_eq (hends : EndsIn name extension) :
    isPlainTyped path = (Text.lower extension == "ts") := by
  obtain ⟨stem, rfl, -, hdot⟩ := hends
  obtain ⟨before, hpath⟩ := exists_append_of_getLast? hname
  have hchars : path.toList = (before ++ stem.toList) ++ '.' :: extension.toList := by
    simp [hpath]
  rw [isPlainTyped, hchars, splitAtLastDot_append _ hdot]
  simp only [String.ofList_toList]

end Path

/-- **The extension decides.**  For every path whose parts are names, with `name` as the last of
them:

* if that ends in an extension, after a dot that is not its first character, the language of the
  file is the one that has this extension in lower case, if any;
* if it ends in none, having no dot or only one at the front, the file has no language;
* if the file is scanned as a script, the grammar is that without markup exactly if this same
  extension in lower case is `ts`;
* both decisions are the same for every other path that has this last part, whatever dots there are
  in the parts before. -/
theorem dispatch_by_extension {path : String} (hproper : ProperParts path.toList) :
    ∃ name, (pathParts path.toList).getLast? = some name.toList ∧
      (∀ extension, EndsIn name extension →
        extension? path = some extension ∧
        (∀ language, ofPath path = some language ↔
          Text.lower extension ∈ language.extensions) ∧
        (ofPath path = some .script →
          (isPlainTyped path = true ↔ Text.lower extension = "ts") ∧
          ∀ (catalog : List FeatureRecord) (settings : ScanSettings) (source : String),
            let s := Scanner.ofCatalog .standard catalog settings
            s.scanFile ⟨path, source⟩ = Scan.scriptIssues s.index path source
              (Script.parse (if Text.lower extension = "ts" then .typed else .withElements)
                source))) ∧
      ((∀ extension, ¬ EndsIn name extension) → ofPath path = none) ∧
      ∀ other, ProperParts other.toList →
        (pathParts other.toList).getLast? = some name.toList →
        ofPath other = ofPath path ∧
          ((ofPath path).isSome = true → isPlainTyped other = isPlainTyped path) := by
  have hne : pathParts path.toList ≠ [] := List.splitOn_ne_nil '/' path.toList
  obtain ⟨name, hname⟩ : ∃ name : String,
      (pathParts path.toList).getLast? = some name.toList := by
    refine ⟨.ofList ((pathParts path.toList).getLast hne), ?_⟩
    rw [List.getLast?_eq_some_getLast hne, String.toList_ofList]
  refine ⟨name, hname, fun extension hends => ⟨?_, fun language => ?_, fun hscript => ?_⟩, ?_, ?_⟩
  · exact (extension?_eq_some_iff_endsIn hproper hname).mpr hends
  · exact ofPath_eq_some_iff hproper hname hends
  · have hplain : isPlainTyped path = true ↔ Text.lower extension = "ts" := by
      rw [isPlainTyped_eq hname hends, beq_iff_eq]
    refine ⟨hplain, fun catalog settings source => ?_⟩
    have hgrammar : Parsers.standard.script (isPlainTyped path) source =
        Script.parse (if Text.lower extension = "ts" then .typed else .withElements) source := by
      rw [Parsers.standard]
      simp only [hplain]
    rw [← hgrammar]
    exact Scanner.scanFile_ofCatalog _ _ _ source hscript
  · exact ofPath_eq_none hproper hname
  · intro other hother hlast
    by_cases hends : ∃ extension, EndsIn name extension
    · obtain ⟨extension, hends⟩ := hends
      refine ⟨Option.ext fun language => ?_, fun _ => ?_⟩
      · rw [ofPath_eq_some_iff hother hlast hends, ofPath_eq_some_iff hproper hname hends]
      · rw [isPlainTyped_eq hlast hends, isPlainTyped_eq hname hends]
    · have hnone := not_exists.mp hends
      rw [ofPath_eq_none hother hlast hnone, ofPath_eq_none hproper hname hnone]
      exact ⟨rfl, nofun⟩

/-- The dots of directories do not count, and of those of the name only the last does. -/
theorem dispatch_by_extension_dotted :
    ProperParts "v1.css/.ts/App.test.TS".toList ∧
      ofPath "v1.css/.ts/App.test.TS" = some .script ∧
      isPlainTyped "v1.css/.ts/App.test.TS" = true ∧
      ofPath "App.test.TS" = some .script ∧ isPlainTyped "App.test.TS" = true := by
  have hproper : ProperParts "v1.css/.ts/App.test.TS".toList := by decide +kernel
  have hlast : (pathParts "v1.css/.ts/App.test.TS".toList).getLast? =
      some "App.test.TS".toList := by decide +kernel
  obtain ⟨name, hname, hextension, -, hother⟩ := dispatch_by_extension hproper
  obtain rfl : name = "App.test.TS" :=
    String.toList_inj.mp (Option.some.inj (hname.symm.trans hlast))
  obtain ⟨-, hlanguage, hgrammar⟩ :=
    hextension "TS" ⟨"App.test", by decide, by decide, by decide⟩
  have hscript := (hlanguage .script).mpr (by decide)
  have hplain := (hgrammar hscript).1.mpr (by decide)
  obtain ⟨hsame, halike⟩ := hother "App.test.TS" (by decide +kernel) (by decide +kernel)
  refine ⟨hproper, hscript, hplain, hsame.trans hscript, (halike ?_).trans hplain⟩
  rw [hscript]
  rfl

end ScanLanguage

end WebBaseline
