import WebBaseline.Command.World
import WebBaseline.Proofs.Scan.Extension
import WebBaseline.Proofs.Text.ByteOrder

/-!
# The sources of a workspace

A directory is searched for sources by descending into all directories below
it but the ignored ones.  What is found depends on what the directory holds,
not on where it is or in which order its entries are listed.

* `mem_filesOf` — the files that a descent meets;
* `nodup_names_filesOf` — none is met twice;
* `mem_sources`, `ascending_sources` — the sources among them, in order;
* `discover_outcome` — the search from its root, in any world.
-/

namespace WebBaseline

open FileTree

namespace Workspace

/-! ### Descending -/

/-- The files of the entries of a directory are those of one entry after the other. -/
theorem filesIn_eq_flatMap (ignored path : List String) (entries : List (String × FileTree)) :
    filesIn ignored path entries = entries.flatMap fun e =>
      if e.2.isDirectory && ignored.contains e.1 then []
      else filesOf ignored (path ++ [e.1]) e.2 := by
  induction entries with
  | nil => rw [filesIn, List.flatMap_nil]
  | cons e rest ih =>
      obtain ⟨name, t⟩ := e
      rw [filesIn, ih, List.flatMap_cons]

/-- Whether some names lead to a regular file, through no directory with an ignored name. -/
structure Reaches (ignored : List String) (t : FileTree) (names : List String)
    (content : Content) : Prop where
  found : t.get? names = some (.file content)
  entered : ∀ name ∈ names.dropLast, name ∉ ignored

/-- A file below an entry is reached through the entry unless this is an ignored directory. -/
theorem reaches_cons_iff {ignored : List String} {entries : List (String × FileTree)}
    (hdistinct : (entries.map (·.1)).Nodup) {name : String} {below : List String}
    {content : Content} :
    Reaches ignored (.directory entries) (name :: below) content ↔
      ∃ t, (name, t) ∈ entries ∧ (t.isDirectory && ignored.contains name) = false ∧
        Reaches ignored t below content := by
  constructor
  · rintro ⟨hfound, hentered⟩
    obtain ⟨t, ht, hbelow⟩ := (get?_directory_eq_some_iff hdistinct name below _).mp hfound
    refine ⟨t, ht, ?_, hbelow, fun n hn => hentered n ?_⟩
    · cases below with
      | nil =>
          obtain rfl : t = .file content := Option.some.inj hbelow
          rfl
      | cons next rest =>
          have hname : name ∉ ignored := hentered name (by simp)
          simp [hname]
    · cases below with
      | nil => cases hn
      | cons next rest => exact List.mem_cons_of_mem name hn
  · rintro ⟨t, ht, hignored, hbelow, hentered⟩
    refine ⟨(get?_directory_eq_some_iff hdistinct name below _).mpr ⟨t, ht, hbelow⟩, ?_⟩
    cases below with
    | nil => simp
    | cons next rest =>
        -- Something is found below the entry, which is thus a directory.
        have hdirectory : t.isDirectory = true := by
          cases t with
          | directory entries => rfl
          | _ => cases hbelow
        have hname : name ∉ ignored := by simpa [hdirectory] using hignored
        rw [List.dropLast_cons_cons]
        exact List.forall_mem_cons.mpr ⟨hname, hentered⟩

/-- **What a descent meets.**  It finds the files that are reached, with their names. -/
theorem mem_filesOf (ignored : List String) {t : FileTree} (ht : Proper t)
    (path names : List String) (content : Content) :
    (names, content) ∈ filesOf ignored path t ↔
      ∃ rest, names = path ++ rest ∧ Reaches ignored t rest content := by
  induction ht generalizing path with
  | file other =>
      rw [filesOf, List.mem_singleton, Prod.mk.injEq]
      constructor
      · rintro ⟨rfl, rfl⟩
        exact ⟨[], by simp, rfl, by simp⟩
      · rintro ⟨rest, rfl, hfound, -⟩
        cases rest with
        | nil =>
            cases hfound
            exact ⟨List.append_nil path, rfl⟩
        | cons name rest => cases hfound
  | link target =>
      rw [filesOf]
      constructor
      · exact fun h => absurd h List.not_mem_nil
      · rintro ⟨rest, rfl, hfound, -⟩
        cases rest <;> cases hfound
  | @directory entries hdistinct _ _ ih =>
      rw [filesOf, filesIn_eq_flatMap, List.mem_flatMap]
      constructor
      · rintro ⟨⟨name, u⟩, he, hmem⟩
        by_cases hignored : (u.isDirectory && ignored.contains name) = true
        · rw [if_pos hignored] at hmem
          cases hmem
        · rw [if_neg hignored] at hmem
          obtain ⟨below, rfl, hbelow⟩ := (ih (name, u) he (path ++ [name])).mp hmem
          refine ⟨name :: below, by simp, (reaches_cons_iff hdistinct).mpr ?_⟩
          exact ⟨u, he, Bool.eq_false_iff.mpr hignored, hbelow⟩
      · rintro ⟨rest, rfl, hrest⟩
        cases rest with
        | nil => cases hrest.found
        | cons name below =>
            obtain ⟨u, he, hignored, hbelow⟩ := (reaches_cons_iff hdistinct).mp hrest
            refine ⟨(name, u), he, ?_⟩
            rw [if_neg (by simp only [hignored, Bool.false_eq_true, not_false_eq_true])]
            exact (ih (name, u) he (path ++ [name])).mpr ⟨below, by simp, hbelow⟩

/-- **No file is met twice.** -/
theorem nodup_names_filesOf (ignored : List String) {t : FileTree} (ht : Proper t)
    (path : List String) : ((filesOf ignored path t).map (·.1)).Nodup := by
  induction ht generalizing path with
  | file content => simp [filesOf]
  | link target => simp [filesOf]
  | @directory entries hdistinct _ hbelow ih =>
      rw [filesOf, filesIn_eq_flatMap, List.map_flatMap, List.nodup_flatMap]
      constructor
      · intro e he
        split
        · exact List.nodup_nil
        · exact ih e he (path ++ [e.1])
      · -- Files of two entries differ in the name after the path.
        have hstarts : ∀ e ∈ entries, ∀ names,
            names ∈ (if e.2.isDirectory && ignored.contains e.1 then []
              else filesOf ignored (path ++ [e.1]) e.2).map (·.1) →
            ∃ rest, names = path ++ e.1 :: rest := by
          intro e he names hnames
          obtain ⟨⟨names, content⟩, hmem, rfl⟩ := List.mem_map.mp hnames
          split at hmem
          · cases hmem
          · obtain ⟨rest, hrest, -⟩ := (mem_filesOf ignored (hbelow e he) _ _ _).mp hmem
            exact ⟨rest, by simp [hrest]⟩
        refine (List.pairwise_map.mp hdistinct).imp_of_mem ?_
        intro a b ha hb hne names hnames hnames'
        obtain ⟨rest, rfl⟩ := hstarts a ha names hnames
        obtain ⟨rest', hrest'⟩ := hstarts b hb _ hnames'
        exact hne (List.cons.inj (List.append_cancel_left hrest')).1

/-! ### Sources -/

/-- Whether a regular file that some names lead to is a source, and with which path. -/
structure Holds (s : WorkspaceSettings) (root : FileTree) (names : List String)
    (f : SourceFile) : Prop where
  /-- It is a text, below directories with names that are not ignored. -/
  reached : Reaches s.ignoreDirs root names (.text f.content)
  /-- Its name is that of a source. -/
  named : ∃ name ∈ names.getLast?, IsSourceName name
  /-- Its path is joined from the names. -/
  path_eq : f.path = joined names

/-- Names that lead somewhere are those of entries. -/
theorem isEntryName_of_get? {t u : FileTree} (ht : Proper t) {names : List String}
    (h : t.get? names = some u) : ∀ name ∈ names, IsEntryName name := by
  induction ht generalizing names with
  | file content => cases names <;> simp [get?] at h ⊢
  | link target => cases names <;> simp [get?] at h ⊢
  | directory hdistinct hnames _ ih =>
      cases names with
      | nil => exact fun name hname => absurd hname List.not_mem_nil
      | cons name rest =>
          obtain ⟨v, hv, hrest⟩ := (get?_directory_eq_some_iff hdistinct name rest u).mp h
          exact List.forall_mem_cons.mpr ⟨hnames (name, v) hv, ih (name, v) hv hrest⟩

/-- A file below a directory has a name. -/
theorem Reaches.exists_last {ignored : List String} {entries : List (String × FileTree)}
    {names : List String} {content : Content}
    (h : Reaches ignored (.directory entries) names content) :
    ∃ before last, names = before ++ [last] := by
  rcases List.eq_nil_or_concat' names with rfl | hlast
  · cases h.found
  · exact hlast

/-- What is made of a file that is met. -/
theorem source?_eq_some_iff {s : WorkspaceSettings} {entries : List (String × FileTree)}
    (hproper : Proper (.directory entries)) {names : List String} {content : Content}
    (hreached : Reaches s.ignoreDirs (.directory entries) names content) (f : SourceFile) :
    source? (names, content) = some f ↔
      content = .text f.content ∧ (∃ name ∈ names.getLast?, IsSourceName name) ∧
        f.path = joined names := by
  obtain ⟨before, last, rfl⟩ := hreached.exists_last
  have hlanguage := ScanLanguage.isSome_ofPath_joined (isEntryName_of_get? hproper hreached.found)
  cases content with
  | text text =>
      rw [source?, ← joined]
      obtain ⟨path, content⟩ := f
      by_cases hname : IsSourceName last
      · rw [if_pos (hlanguage.mpr hname)]
        simp [hname, and_comm, eq_comm]
      · rw [if_neg (mt hlanguage.mp hname)]
        simp [hname]
  | _ => simp [source?]

/-- The files below a directory are those that are reached from it. -/
theorem mem_filesIn {ignored : List String} {entries : List (String × FileTree)}
    (hproper : Proper (.directory entries)) (names : List String) (content : Content) :
    (names, content) ∈ filesIn ignored [] entries ↔
      Reaches ignored (.directory entries) names content := by
  rw [← filesOf, mem_filesOf ignored hproper]
  simp

/-- A file that is met is a source if one is made of it. -/
theorem holds_of_source? {s : WorkspaceSettings} {entries : List (String × FileTree)}
    (hproper : Proper (.directory entries)) {names : List String} {content : Content}
    (hfile : (names, content) ∈ filesIn s.ignoreDirs [] entries) {f : SourceFile}
    (hf : source? (names, content) = some f) : Holds s (.directory entries) names f := by
  have hreached := (mem_filesIn hproper names content).mp hfile
  obtain ⟨rfl, hnamed, hpath⟩ := (source?_eq_some_iff hproper hreached f).mp hf
  exact ⟨hreached, hnamed, hpath⟩

/-- **Which sources are found.** -/
theorem mem_sources {s : WorkspaceSettings} {entries : List (String × FileTree)}
    (hproper : Proper (.directory entries)) (f : SourceFile) :
    f ∈ sources s entries ↔ ∃ names, Holds s (.directory entries) names f := by
  rw [sources, List.mem_mergeSort, List.mem_filterMap]
  constructor
  · rintro ⟨⟨names, content⟩, hfile, hf⟩
    exact ⟨names, holds_of_source? hproper hfile hf⟩
  · rintro ⟨names, hreached, hnamed, hpath⟩
    exact ⟨(names, .text f.content), (mem_filesIn hproper _ _).mpr hreached,
      (source?_eq_some_iff hproper hreached f).mpr ⟨rfl, hnamed, hpath⟩⟩

/-- The names of a source are determined by its path. -/
theorem Holds.names_eq {s : WorkspaceSettings} {entries : List (String × FileTree)}
    (hproper : Proper (.directory entries)) {names others : List String} {f g : SourceFile}
    (hf : Holds s (.directory entries) names f) (hg : Holds s (.directory entries) others g)
    (hpath : f.path = g.path) : names = others := by
  have hnames := isEntryName_of_get? hproper hf.reached.found
  have hothers := isEntryName_of_get? hproper hg.reached.found
  obtain ⟨before, last, rfl⟩ := hf.reached.exists_last
  obtain ⟨before', last', rfl⟩ := hg.reached.exists_last
  rw [hf.path_eq, hg.path_eq] at hpath
  exact ScanLanguage.joined_injective (by simp) (by simp) hnames hothers hpath

/-- **The order of sources.**  Their paths ascend, so none occurs twice. -/
theorem ascending_sources {s : WorkspaceSettings} {entries : List (String × FileTree)}
    (hproper : Proper (.directory entries)) :
    (sources s entries).Pairwise fun a b => a.path < b.path := by
  have hsorted : (sources s entries).Pairwise fun a b => a.path ≤ b.path := by
    have hle : ∀ a b : SourceFile, (!decide (b.path < a.path)) = true ↔ a.path ≤ b.path := by
      intro a b
      rw [Bool.not_eq_true', decide_eq_false_iff_not, String.not_lt]
    refine (List.pairwise_mergeSort (fun a b c => ?_) (fun a b => ?_) _).imp
      fun {a b} h => (hle a b).mp h
    · rw [hle, hle, hle]
      exact le_trans
    · rw [Bool.or_eq_true, hle, hle]
      exact le_total a.path b.path
  have hdistinct : (sources s entries).Pairwise fun a b => a.path ≠ b.path := by
    have hnames := nodup_names_filesOf s.ignoreDirs hproper []
    rw [filesOf] at hnames
    refine (List.mergeSort_perm _ _).symm.pairwise ?_ fun {a b} h => Ne.symm h
    rw [List.pairwise_filterMap]
    refine (List.pairwise_map.mp hnames).imp_of_mem ?_
    rintro ⟨names, content⟩ ⟨others, content'⟩ hfile hfile' hne f hf g hg hpath
    exact hne ((holds_of_source? hproper hfile hf).names_eq hproper
      (holds_of_source? hproper hfile' hg) hpath)
  exact (hsorted.and hdistinct).imp fun h => lt_of_le_of_ne h.1 h.2

/-- Sources in the order of their paths are determined by which they are. -/
theorem eq_of_ascending {files others : List SourceFile}
    (hfiles : files.Pairwise fun a b => a.path < b.path)
    (hothers : others.Pairwise fun a b => a.path < b.path)
    (hmem : ∀ f, f ∈ files ↔ f ∈ others) : files = others := by
  have hnodup : ∀ {l : List SourceFile}, (l.Pairwise fun a b => a.path < b.path) → l.Nodup :=
    fun h => h.imp fun hlt heq => absurd (congrArg SourceFile.path heq) (ne_of_lt hlt)
  have hperm : files.Perm others :=
    (List.perm_ext_iff_of_nodup (hnodup hfiles) (hnodup hothers)).mpr hmem
  exact hperm.eq_of_pairwise (fun a b _ _ hab hba => absurd hab (lt_asymm hba)) hfiles hothers

/-- **Other listings.**  The same sources are found in whatever order directories are listed. -/
theorem sources_relisted {s : WorkspaceSettings} {entries listed : List (String × FileTree)}
    (hproper : Proper (.directory entries))
    (hlisted : Relisted (.directory entries) (.directory listed)) :
    sources s listed = sources s entries := by
  have hholds : ∀ names f, Holds s (.directory listed) names f ↔
      Holds s (.directory entries) names f := by
    intro names f
    have hfound := hlisted.get?_file_iff hproper names (.text f.content)
    exact ⟨fun h => ⟨⟨hfound.mpr h.reached.found, h.reached.entered⟩, h.named, h.path_eq⟩,
      fun h => ⟨⟨hfound.mp h.reached.found, h.reached.entered⟩, h.named, h.path_eq⟩⟩
  refine eq_of_ascending (ascending_sources (hlisted.proper hproper)) (ascending_sources hproper) ?_
  intro f
  rw [mem_sources (hlisted.proper hproper), mem_sources hproper]
  simp only [hholds]

/-! ### Searching a directory -/

/-- What a search for sources below a directory gives in a world. -/
theorem run_discover (environment : String → Option String) (s : WorkspaceSettings)
    (root : String) (w : World) :
    Command.discover (World.system environment) s root w =
      match w.entries root with
      | none => (.error (.notDirectory root), w)
      | some entries => (.ok (sources s entries), w) := by
  have hbind : Command.discover (World.system environment) s root w =
      (match w.entries root with
        | none => pure (.error (.notDirectory root))
        | some entries => pure (.ok (sources s entries)) :
        StateM World (Except Failure (List SourceFile))) w := rfl
  rw [hbind]
  cases w.entries root <;> rfl

/-- **Searching a directory for sources.**  In every world and for all settings:

* the search fails if the root is no directory, and only then;
* what it finds below a root whose names are those of entries are the texts whose names are those
  of sources, each with its joined path, unless a directory on the way to one has an ignored name;
* no two files give the same path, and the paths ascend in the order of their bytes;
* nothing else is found in another world, from a root of another name, if all that differs below
  the root is the order in which directories list their entries. -/
theorem discover_outcome (environment : String → Option String) (s : WorkspaceSettings)
    (root : String) (w : World) :
    ((∀ entries, w.files.at? root ≠ .ok (.directory entries)) →
      Command.discover (World.system environment) s root w = (.error (.notDirectory root), w)) ∧
    ∀ entries, w.files.at? root = .ok (.directory entries) →
      ∃ files, Command.discover (World.system environment) s root w = (.ok files, w) ∧
        (Proper (.directory entries) →
          (∀ f, f ∈ files ↔ ∃ names, Holds s (.directory entries) names f) ∧
          (∀ names others f g, Holds s (.directory entries) names f →
            Holds s (.directory entries) others g → f.path = g.path → names = others) ∧
          (files.Pairwise fun a b => Text.bytes a.path < Text.bytes b.path) ∧
          ∀ (other : World) (elsewhere : String) (listed : List (String × FileTree)),
            other.files.at? elsewhere = .ok (.directory listed) →
            Relisted (.directory entries) (.directory listed) →
            Command.discover (World.system environment) s elsewhere other =
              (.ok files, other)) := by
  have hentries : ∀ (w : World) root entries, w.files.at? root = .ok (.directory entries) →
      w.entries root = some entries := by
    intro w root entries h
    rw [World.entries, h]
  constructor
  · intro hnone
    have hmissing : w.entries root = none := by
      rw [World.entries]
      split
      · rename_i entries h
        exact absurd h (hnone entries)
      · rfl
    rw [run_discover, hmissing]
  · intro entries hroot
    refine ⟨sources s entries, by rw [run_discover, hentries w root entries hroot],
      fun hproper => ⟨mem_sources hproper, ?_, ?_, ?_⟩⟩
    · intro names others f g hf hg hpath
      exact hf.names_eq hproper hg hpath
    · exact (ascending_sources hproper).imp fun h => (Text.lt_iff_bytes_lt _ _).mp h
    · intro other elsewhere listed hother hlisted
      rw [run_discover, hentries other elsewhere listed hother]
      exact congrArg (fun files => (Except.ok files, other)) (sources_relisted hproper hlisted)

/-- A directory with sources beside what is passed over: an ignored directory, a link, a file that
is no text, and one whose name has no extension of sources.  A file may have an ignored name. -/
def mixedEntries : List (String × FileTree) :=
  [("lib", .directory [("x.js", .file (.text "fetch()"))]),
    ("a", .directory [("lib", .directory [("y.js", .file (.text ""))]), ("x.js", .file (.text "1"))]),
    ("skip.css", .file (.text "a\x7b\x7d")), ("a-b", .directory [("x.JS", .file (.text "2"))]),
    ("latest.js", .link "a/x.js"), ("raw.html", .file .binary), ("notes.md", .file (.text ""))]

/-- The same directory, with its entries and those of one below it in other orders. -/
def mixedListing : List (String × FileTree) :=
  [("notes.md", .file (.text "")), ("raw.html", .file .binary), ("latest.js", .link "a/x.js"),
    ("a-b", .directory [("x.JS", .file (.text "2"))]), ("skip.css", .file (.text "a\x7b\x7d")),
    ("a", .directory [("x.js", .file (.text "1")), ("lib", .directory [("y.js", .file (.text ""))])]),
    ("lib", .directory [("x.js", .file (.text "fetch()"))])]

theorem proper_mixedEntries : Proper (.directory mixedEntries) := by
  have hfile : ∀ name content, IsEntryName name →
      Proper (.directory [(name, .file (.text content))]) := fun name content h =>
    .directory (List.nodup_singleton name) (List.forall_mem_singleton.mpr h)
      (List.forall_mem_singleton.mpr (.file _))
  have ha : Proper (.directory [("lib", .directory [("y.js", .file (.text ""))]),
      ("x.js", .file (.text "1"))]) :=
    .directory (by decide) (by decide) (List.forall_mem_cons.mpr
      ⟨hfile "y.js" "" (by decide), List.forall_mem_singleton.mpr (.file _)⟩)
  refine .directory (by decide) (by decide) ?_
  simp only [mixedEntries, List.forall_mem_cons]
  exact ⟨hfile "x.js" _ (by decide), ha, .file _, hfile "x.JS" _ (by decide), .link _, .file _,
    .file _, fun e he => absurd he List.not_mem_nil⟩

theorem relisted_mixedEntries : Relisted (.directory mixedEntries) (.directory mixedListing) := by
  have hbelow : Relisted
      (.directory [("lib", .directory [("y.js", .file (.text ""))]), ("x.js", .file (.text "1"))])
      (.directory [("x.js", .file (.text "1")), ("lib", .directory [("y.js", .file (.text ""))])]) :=
    .reorder (List.Perm.swap _ _ _)
  exact .trans (.inside [("lib", .directory [("x.js", .file (.text "fetch()"))])] _ "a" hbelow)
    (.reorder (List.reverse_perm _).symm)

/-- Of the files of such a directory three are sources, also when it is listed in another order
and found through a link.  The paths ascend although the names of their directories do not. -/
theorem discover_outcome_mixed :
    let s : WorkspaceSettings := ⟨["lib", "skip.css"]⟩
    let w : World :=
      { files := .directory [("site", .directory mixedEntries)], environment := fun _ => none
        now := 0 }
    let other : World :=
      { w with files := .directory [("lib", .directory mixedListing), ("now", .link "/lib")] }
    let files : List SourceFile := [⟨"a-b/x.JS", "2"⟩, ⟨"a/x.js", "1"⟩, ⟨"skip.css", "a\x7b\x7d"⟩]
    Command.discover (World.system w.environment) s "site" w = (.ok files, w) ∧
    (files.Pairwise fun a b => Text.bytes a.path < Text.bytes b.path) ∧
    Command.discover (World.system w.environment) s "now" other = (.ok files, other) := by
  intro s w other files
  have hroot : w.files.at? "site" = .ok (.directory mixedEntries) := by with_unfolding_all rfl
  have hother : other.files.at? "now" = .ok (.directory mixedListing) := by with_unfolding_all rfl
  have hfiles : Workspace.sources s mixedEntries = files := by
    have hmet : (filesIn s.ignoreDirs [] mixedEntries).filterMap source? =
        [⟨"a/x.js", "1"⟩, ⟨"skip.css", "a\x7b\x7d"⟩, ⟨"a-b/x.JS", "2"⟩] := by decide +kernel
    refine eq_of_ascending (ascending_sources proper_mixedEntries) (by decide +kernel) fun f => ?_
    rw [Workspace.sources, List.mem_mergeSort, hmet]
    simp only [files, List.mem_cons, List.not_mem_nil, or_false]
    tauto
  obtain ⟨found, hfound, hproper⟩ :=
    (discover_outcome w.environment s "site" w).2 mixedEntries hroot
  have hentries : w.entries "site" = some mixedEntries := by rw [World.entries, hroot]
  have heq : found = files := by
    rw [run_discover, hentries] at hfound
    exact (Except.ok.inj (congrArg Prod.fst hfound)).symm.trans hfiles
  obtain ⟨-, -, hascending, hrelisted⟩ := hproper proper_mixedEntries
  rw [heq] at hfound hascending hrelisted
  exact ⟨hfound, hascending, hrelisted other "now" mixedListing hother relisted_mixedEntries⟩

end Workspace

end WebBaseline
