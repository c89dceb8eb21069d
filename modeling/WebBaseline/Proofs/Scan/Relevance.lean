import Mathlib.Data.List.Find
import WebBaseline.Proofs.Scan.Appending
import WebBaseline.Proofs.Scan.FirstOccurrence
import WebBaseline.Proofs.Scan.Soundness

/-!
# Records that matter

Of the records with one identifier only the first is ever found, and records
whose identifiers start in none of four ways are not looked for.  A catalog can
therefore do without all others.  In a catalog that repeats no identifier the
order of the records does not matter either, except where a fragment of the
table of names is part of several identifiers.

* `essential` — the records that matter;
* `narrows_build_essential`, `scanFile_essential` — no file is scanned differently without the
  others;
* `scanFile_reordered`, `scanFile_reordered_of_ne_script` — records in another order;
* `run_congr` — runs that scan files alike are alike;
* `run_essential_and_reordered` — the runs over all lists of files.
-/

namespace WebBaseline

/-- How the identifiers start that scanners look for. -/
def relevantStarts : List String := ["css-", "html-", "api-", "js-"]

/-- Whether scanners may look for an identifier. -/
def isRelevant (identifier : String) : Bool :=
  relevantStarts.any fun start => identifier.startsWith start

theorem isRelevant_iff {identifier : String} :
    isRelevant identifier = true ↔
      ∃ start ∈ relevantStarts, start.toList <+: identifier.toList := by
  simp only [isRelevant, List.any_eq_true, String.startsWith_string_iff]

/-- The catalog without records whose identifier occurred before, and without those that scanners
do not look for. -/
def essential (catalog : List FeatureRecord) : List FeatureRecord :=
  (firstsBy FeatureRecord.identifier catalog).filter fun r => isRelevant r.identifier

/-! ### Without the other records -/

/-- A search among some items is a search among all, if what is searched for is either among them
or not. -/
theorem find?_filter_of_congr {α : Type} {p q : α → Bool} (items : List α)
    (h : ∀ a b, q a = true → q b = true → p a = p b) :
    (items.filter p).find? q = (items.find? q).filter p := by
  induction items with
  | nil => rfl
  | cons a rest ih =>
      rw [List.filter_cons, List.find?_cons (a := a)]
      cases hq : q a with
      | false =>
          split
          · rw [List.find?_cons, hq, ih]
          · exact ih
      | true =>
          cases hp : p a with
          | true => simp [hq, hp, Option.filter_some]
          | false =>
              have hnone : (rest.find? q).filter p = none := by
                rw [Option.filter_eq_none_iff]
                intro b hb hpb
                rw [← h a b hq (List.find?_some hb), hp] at hpb
                cases hpb
              simp [hp, ih, hnone, Option.filter_some]

/-- Scripts only use features that are relevant. -/
theorem isRelevant_of_matchesFragment {fragment : String} {r : FeatureRecord}
    (h : FeatureIndex.matchesFragment fragment r = true) : isRelevant r.identifier = true := by
  obtain ⟨hstart, -⟩ := (FeatureIndex.matchesFragment_iff fragment r).mp h
  rcases hstart with hapi | hjs
  · exact isRelevant_iff.mpr ⟨"api-", by decide, hapi⟩
  · exact isRelevant_iff.mpr ⟨"js-", by decide, hjs⟩

/-- Of a catalog and the records that matter the index finds the same relevant features. -/
theorem narrows_build_essential (catalog : List FeatureRecord) (table : NameTable)
    (policy : PriorityPolicy) :
    Narrows isRelevant (.build (essential catalog) table policy)
      (.build catalog table policy) := by
  refine narrows_build (fun id => ?_) fun _ fragment _ => ?_
  · rw [essential, find?_filter_of_congr, find?_firstsBy (FeatureIndex.hasIdentifier_congr id)]
    intro q r hq hr
    rw [beq_iff_eq.mp hq, beq_iff_eq.mp hr]
  · rw [essential, find?_filter_of_congr,
      find?_firstsBy (FeatureIndex.matchesFragment_congr fragment)]
    intro q r hq hr
    rw [isRelevant_of_matchesFragment hq, isRelevant_of_matchesFragment hr]

namespace Scanner

variable (parsers : Parsers) (catalog : List FeatureRecord) (settings : ScanSettings)

/-- Issues are of relevant features. -/
theorem isRelevant_of_mem_scanFile {file : SourceFile} {i : Issue}
    (h : i ∈ (ofCatalog parsers catalog settings).scanFile file) :
    isRelevant i.featureId = true := by
  obtain ⟨language, r, haccounted⟩ := exists_accounted_of_mem_scanFile h
  obtain ⟨start, hstart, hprefix⟩ := haccounted.starts
  have hlonger : ∀ language : ScanLanguage, ∀ start ∈ language.identifierStarts,
      ∃ short ∈ relevantStarts, short.toList <+: start.toList := by
    intro language
    cases language <;> decide
  obtain ⟨short, hshort, hbefore⟩ := hlonger language start hstart
  exact isRelevant_iff.mpr ⟨short, hshort, hbefore.trans hprefix⟩

/-- A file has the same issues without the records that do not matter. -/
theorem scanFile_essential (file : SourceFile) :
    (ofCatalog parsers (essential catalog) settings).scanFile file =
      (ofCatalog parsers catalog settings).scanFile file := by
  have hnarrows := narrows_build_essential catalog (.withExtras settings.extraNames.entries)
    settings.priority
  rw [ofCatalog, hnarrows.scanFile_eq parsers ScanLanguage.all file]
  exact List.filter_eq_self.mpr fun i hi =>
    isRelevant_of_mem_scanFile parsers catalog settings hi

end Scanner

/-- Which priorities a scanner gives is a matter of the settings. -/
theorem Scanner.policy_ofCatalog_congr (parsers : Parsers) {catalog other : List FeatureRecord}
    (settings : ScanSettings) :
    (ofCatalog parsers other settings).index.policy =
      (ofCatalog parsers catalog settings).index.policy := by
  rw [ofCatalog, FeatureIndex.policy_build, ofCatalog, FeatureIndex.policy_build]

/-! ### Records in another order -/

/-- Whether a fragment is part of one identifier for scripts at most. -/
def NamesOneAtMost (catalog : List FeatureRecord) (fragment : String) : Prop :=
  ∀ q ∈ catalog, ∀ r ∈ catalog, FeatureIndex.NamedBy fragment q →
    FeatureIndex.NamedBy fragment r → q.identifier = r.identifier

/-- Two indices that find the same narrow each other to all identifiers. -/
theorem Narrows.of_eq {index other : FeatureIndex}
    (lookup : ∀ id, index.lookup id = other.lookup id)
    (scriptFeature : ∀ name, index.scriptFeature name = other.scriptFeature name)
    (policy : index.policy = other.policy) : Narrows (fun _ => true) index other where
  lookup := by
    intro id
    rw [lookup id]
    cases other.lookup id <;> rfl
  scriptFeature := by
    intro name
    rw [scriptFeature name]
    cases other.scriptFeature name <;> rfl
  policy := policy

/-- An index that resolves no names of scripts. -/
def FeatureIndex.withoutNames (index : FeatureIndex) : FeatureIndex :=
  { index with scriptNames := ∅ }

theorem FeatureIndex.scriptFeature_withoutNames (index : FeatureIndex) (name : String) :
    index.withoutNames.scriptFeature name = none := by
  simp [scriptFeature, withoutNames]

section Reordered

variable {catalog other : List FeatureRecord} (hperm : catalog.Perm other)
  (hdistinct : (catalog.map FeatureRecord.identifier).Nodup)
include hperm hdistinct

/-- A search that only records of one identifier satisfy does not depend on the order. -/
theorem find?_reordered {p : FeatureRecord → Bool}
    (hp : ∀ q ∈ catalog, ∀ r ∈ catalog, p q = true → p r = true → q.identifier = r.identifier) :
    other.find? p = catalog.find? p := by
  refine (List.find?_eq_find?_of_perm hperm ?_).symm
  rintro q ⟨hq, hpq⟩ r ⟨hr, hpr⟩
  exact List.inj_on_of_nodup_map hdistinct hq hr (hp q hq r hr hpq hpr)

/-- What is found by identifier does not depend on the order. -/
theorem lookup_reordered (table : NameTable) (policy : PriorityPolicy) (id : String) :
    (FeatureIndex.build other table policy).lookup id =
      (FeatureIndex.build catalog table policy).lookup id := by
  have hfind : other.find? (·.identifier == id) = catalog.find? (·.identifier == id) :=
    find?_reordered hperm hdistinct fun q _ r _ hq hr => by
      rw [beq_iff_eq.mp hq, beq_iff_eq.mp hr]
  rw [FeatureIndex.lookup_build, FeatureIndex.lookup_build, FeatureIndex.search,
    FeatureIndex.search, hfind]

/-- What is found by name does not either, if its fragment is part of one identifier at most. -/
theorem scriptFeature_reordered {table : NameTable} (policy : PriorityPolicy) {name : String}
    (hone : ∀ fragment, table.fragment? name = some fragment →
      NamesOneAtMost catalog fragment) :
    (FeatureIndex.build other table policy).scriptFeature name =
      (FeatureIndex.build catalog table policy).scriptFeature name := by
  rw [FeatureIndex.scriptFeature_build, FeatureIndex.scriptFeature_build]
  unfold FeatureIndex.searchScript
  cases hfragment : table.fragment? name with
  | none => rfl
  | some fragment =>
      have hfind : other.find? (FeatureIndex.matchesFragment fragment) =
          catalog.find? (FeatureIndex.matchesFragment fragment) :=
        find?_reordered hperm hdistinct fun q hq r hr hqnamed hrnamed =>
          hone fragment hfragment q hq r hr
            ((FeatureIndex.matchesFragment_iff fragment q).mp hqnamed)
            ((FeatureIndex.matchesFragment_iff fragment r).mp hrnamed)
      unfold FeatureIndex.matchesFragment at hfind
      rw [Option.bind_some, Option.bind_some, FeatureIndex.searchFragment,
        FeatureIndex.searchFragment, hfind]

namespace Scanner

variable (parsers : Parsers) (settings : ScanSettings)

/-- Files that are no scripts have the same issues in either order. -/
theorem scanFile_reordered_of_ne_script {file : SourceFile}
    (hscript : ScanLanguage.ofPath file.path ≠ some .script) :
    (ofCatalog parsers other settings).scanFile file =
      (ofCatalog parsers catalog settings).scanFile file := by
  -- The names of scripts may be resolved differently, so they are taken out of both indices.
  have hnarrows : Narrows (fun _ => true) (ofCatalog parsers other settings).index.withoutNames
      (ofCatalog parsers catalog settings).index.withoutNames :=
    .of_eq (lookup_reordered hperm hdistinct _ _)
      (fun name => by
        rw [FeatureIndex.scriptFeature_withoutNames, FeatureIndex.scriptFeature_withoutNames])
      (policy_ofCatalog_congr parsers settings)
  have hstripped :
      scanFile ⟨parsers, _, settings.style, ScanLanguage.all⟩ file =
        scanFile ⟨parsers, _, settings.style, ScanLanguage.all⟩ file :=
    (hnarrows.scanFile_eq parsers ScanLanguage.all file).trans (List.filter_true _)
  -- Style sheets and markup documents do not ask for names, so they do not notice their loss.
  have hnames : ∀ index : FeatureIndex,
      scanFile ⟨parsers, index.withoutNames, settings.style, ScanLanguage.all⟩ file =
        scanFile ⟨parsers, index, settings.style, ScanLanguage.all⟩ file := by
    intro index
    unfold scanFile
    cases hlanguage : ScanLanguage.ofPath file.path with
    | none => rfl
    | some language =>
        cases language with
        | script => exact absurd hlanguage hscript
        | style => rfl
        | markup => rfl
  rwa [hnames, hnames] at hstripped

/-- All files have the same issues in either order if each fragment is part of one identifier for
scripts at most. -/
theorem scanFile_reordered
    (hfragments : ∀ name fragment,
      (NameTable.withExtras settings.extraNames.entries).fragment? name = some fragment →
        NamesOneAtMost catalog fragment) (file : SourceFile) :
    (ofCatalog parsers other settings).scanFile file =
      (ofCatalog parsers catalog settings).scanFile file := by
  have hnarrows : Narrows (fun _ => true) (ofCatalog parsers other settings).index
      (ofCatalog parsers catalog settings).index :=
    .of_eq (lookup_reordered hperm hdistinct _ _)
      (fun name => scriptFeature_reordered hperm hdistinct settings.priority (hfragments name))
      (policy_ofCatalog_congr parsers settings)
  exact (hnarrows.scanFile_eq parsers ScanLanguage.all file).trans (List.filter_true _)

end Scanner

end Reordered

/-! ### Runs -/

namespace Scanner

variable {s t : Scanner}

/-- The rest of a run depends on the issues of files only. -/
theorem runFrom_congr (hscan : ∀ file, s.scanFile file = t.scanFile file) {σ : Type}
    (c : Canceller σ) (total : Nat) (files : List SourceFile) (state : σ) (done : Nat)
    (found : List (List Issue)) (progress : List Nat) :
    s.runFrom c total files state done found progress =
      t.runFrom c total files state done found progress := by
  induction files generalizing state done found progress with
  | nil => rfl
  | cons file rest ih => rw [runFrom, runFrom, hscan file, ih]

/-- **Runs** over the same files are alike if the scanners find the same in each file. -/
theorem run_congr (hscan : ∀ file, s.scanFile file = t.scanFile file) {σ : Type}
    (c : Canceller σ) (files : List SourceFile) : s.run c files = t.run c files := by
  cases files with
  | nil => rfl
  | cons file rest => exact runFrom_congr hscan c _ (file :: rest) _ _ _ _

/-- The issues of a file are kept or left out together if that goes by the path. -/
theorem filter_scanFile (s : Scanner) (keeps : String → Bool) (file : SourceFile) :
    (s.scanFile file).filter (fun i => keeps i.file) =
      if keeps file.path then s.scanFile file else [] := by
  split
  next hkeeps =>
    rw [List.filter_eq_self]
    intro i hi
    rw [s.file_of_mem_scanFile hi, hkeeps]
  next hdrops =>
    rw [List.filter_eq_nil_iff]
    intro i hi
    rwa [s.file_of_mem_scanFile hi]

/-- The issues of some files are those of scanners that scan these files alike. -/
theorem filter_issues_run_congr {keeps : String → Bool}
    (hscan : ∀ file, keeps file.path = true → s.scanFile file = t.scanFile file) {σ : Type}
    (c : Canceller σ) (files : List SourceFile) :
    (s.run c files).result.issues.filter (fun i => keeps i.file) =
      (t.run c files).result.issues.filter fun i => keeps i.file := by
  obtain ⟨count, hstops, -⟩ := s.exists_result_run c files
  rw [s.issues_run hstops, t.issues_run hstops, List.filter_flatMap, List.filter_flatMap]
  refine List.flatMap_congr fun file _ => ?_
  rw [filter_scanFile, filter_scanFile]
  split
  next hkeeps => exact hscan file hkeeps
  next => rfl

/-- **Records that matter.**  For all parsers, catalogs, settings and files, and whatever cancels
the runs:

* without the records whose identifier occurred before, and without those whose identifier starts
  in none of four ways, the run is the same, with all parts of its result;
* if no identifier is repeated, the records of the catalog in another order give the same issues of
  all files that are style sheets or markup documents;
* if moreover no fragment of the table of names is part of two identifiers for scripts, they give
  the same run. -/
theorem run_essential_and_reordered {σ : Type} (parsers : Parsers) (catalog : List FeatureRecord)
    (settings : ScanSettings) (c : Canceller σ) (files : List SourceFile) :
    let run := fun catalog => (ofCatalog parsers catalog settings).run c files
    let unscripted := fun path => ScanLanguage.ofPath path != some .script
    run (essential catalog) = run catalog ∧
    ∀ other, catalog.Perm other → (catalog.map FeatureRecord.identifier).Nodup →
      (run other).result.issues.filter (fun i => unscripted i.file) =
        (run catalog).result.issues.filter (fun i => unscripted i.file) ∧
      ((∀ entry ∈ (NameTable.withExtras settings.extraNames.entries).entries,
          NamesOneAtMost catalog entry.2) →
        run other = run catalog) := by
  intro run unscripted
  refine ⟨run_congr (scanFile_essential parsers catalog settings) c files,
    fun other hperm hdistinct => ⟨?_, fun hfragments => ?_⟩⟩
  · refine filter_issues_run_congr (fun file hfile => ?_) c files
    exact scanFile_reordered_of_ne_script hperm hdistinct parsers settings (bne_iff_ne.mp hfile)
  · refine run_congr (fun file => ?_) c files
    refine scanFile_reordered hperm hdistinct parsers settings (fun name fragment hname => ?_) file
    obtain ⟨entry, hentry, rfl⟩ := Option.map_eq_some_iff.mp hname
    exact hfragments entry (List.mem_of_find?_eq_some hentry)

end Scanner

end WebBaseline
