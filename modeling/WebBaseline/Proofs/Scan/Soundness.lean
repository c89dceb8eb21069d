import WebBaseline.Proofs.Scan.FileOrder
import WebBaseline.Proofs.Scan.Resolution

/-!
# What issues say is true

Each issue of a run stands for a use in one of the files, and says of the
feature what the catalog says of the first record with its identifier.  A name
in a script is looked up by a fragment, all other uses by identifier; that both
lead to the first record of an identifier is the point of `search_of_searchScript`.

* `Use.found`, `Use.starts`, `Use.shown_eq` — what is used, how its identifier
  starts and which name is shown;
* `Accounted` — an issue with the record that it refers to;
* `issues_accounted` — the issues of every run.
-/

namespace WebBaseline

open FeatureIndex

/-- How the identifiers start that issues of a language have. -/
def ScanLanguage.identifierStarts : ScanLanguage → List String
  | script => ["api-", "js-"]
  | style => ["css-properties-"]
  | markup => ["html-element-", "html-attribute-"]

namespace Scan.Use

variable {rules : StyleRules} {catalog : List FeatureRecord} {table : NameTable} {source : String}
  {tree : SyntaxTree} {f : IndexedFeature} {language : ScanLanguage} {shown : String}
  {point : Point}

/-- What is used is found by its identifier. -/
theorem found
    (h : Use rules (search catalog) (searchScript catalog table) source tree f language shown
      point) : search catalog f.identifier = some f := by
  cases h with
  | name _ _ found => exact search_of_searchScript found
  | tagName _ _ _ found => rwa [identifier_of_search found]
  | attributeName _ _ _ _ _ found => rwa [identifier_of_search found]
  | property _ _ _ found _ => rwa [identifier_of_search found]
  | keyword _ _ _ _ _ _ _ _ found _ => rwa [identifier_of_search found]

/-- The language decides how the identifier starts. -/
theorem starts
    (h : Use rules (search catalog) (searchScript catalog table) source tree f language shown
      point) : ∃ start ∈ language.identifierStarts, start.toList <+: f.identifier.toList := by
  -- An identifier that was looked up is put together from its start.
  have hstart : ∀ {start rest : String}, search catalog (start ++ rest) = some f →
      start.toList <+: f.identifier.toList := by
    intro start rest hfound
    rw [identifier_of_search hfound, String.toList_append]
    exact List.prefix_append _ _
  cases h with
  | name _ _ found =>
      rcases isScript_of_searchScript found with hapi | hjs
      · exact ⟨"api-", by decide, String.startsWith_string_iff.mp hapi⟩
      · exact ⟨"js-", by decide, String.startsWith_string_iff.mp hjs⟩
  | tagName _ _ _ found => exact ⟨"html-element-", by decide, hstart found⟩
  | attributeName _ _ _ _ _ found => exact ⟨"html-attribute-", by decide, hstart found⟩
  | property _ _ _ found _ => exact ⟨"css-properties-", by decide, hstart found⟩
  | keyword _ _ _ _ _ _ _ _ found _ =>
      rw [String.append_assoc, String.append_assoc] at found
      exact ⟨"css-properties-", by decide, hstart found⟩

/-- The name that is shown is that of the feature, except for key words of style sheets. -/
theorem shown_eq
    (h : Use rules (search catalog) (searchScript catalog table) source tree f language shown
      point) :
    shown = f.name ∨ language = .style ∧ ∃ property value,
      f.identifier = "css-properties-" ++ property ++ "-" ++ value ∧
      shown = property ++ ": " ++ value := by
  cases h with
  | name => exact .inl rfl
  | tagName => exact .inl rfl
  | attributeName => exact .inl rfl
  | property => exact .inl rfl
  | keyword _ _ _ _ _ _ _ _ found _ =>
      exact .inr ⟨rfl, _, _, identifier_of_search found, rfl⟩

end Scan.Use

/-- Whether an issue of a file in a language says what a catalog says of a use in it; `r` is the
record that it refers to. -/
structure Accounted (parsers : Parsers) (catalog : List FeatureRecord) (settings : ScanSettings)
    (file : SourceFile) (language : ScanLanguage) (r : FeatureRecord) (i : Issue) : Prop where
  path : i.file = file.path
  ofPath : ScanLanguage.ofPath file.path = some language
  /-- The record is the first one of its identifier. -/
  first : ∃ before after, catalog = before ++ r :: after ∧
    ∀ q ∈ before, q.identifier ≠ r.identifier
  featureId : i.featureId = r.identifier
  status : i.status = .ofCode r.statusCode
  priority : i.priority = settings.priority.priorityOf (.ofCode r.statusCode)
  /-- The issue shows the name and the place of a use of the record. -/
  use : ∃ point, i.location = .ofPoint point ∧
    Scan.Use settings.style (search catalog)
      (searchScript catalog (.withExtras settings.extraNames.entries)) file.content
      (parsers.tree language file.path file.content) (.ofRecord r) language i.name point
  /-- The name is that of the record, which may lack one, but key words of style sheets show
  themselves with their property. -/
  name : i.name = (if r.name = "" then r.identifier else r.name) ∨
    language = .style ∧ ∃ property value,
      i.featureId = "css-properties-" ++ property ++ "-" ++ value ∧
      i.name = property ++ ": " ++ value
  starts : ∃ start ∈ language.identifierStarts, start.toList <+: i.featureId.toList

/-- There is one first record of an identifier. -/
theorem Accounted.find?_eq {parsers : Parsers} {catalog : List FeatureRecord}
    {settings : ScanSettings} {file : SourceFile} {language : ScanLanguage} {r : FeatureRecord}
    {i : Issue}
    (h : Accounted parsers catalog settings file language r i) :
    catalog.find? (·.identifier == i.featureId) = some r := by
  obtain ⟨before, after, hsplit, hbefore⟩ := h.first
  rw [h.featureId]
  refine List.find?_eq_some_iff_append.mpr ⟨beq_self_eq_true _, before, after, hsplit, ?_⟩
  intro q hq
  simpa using hbefore q hq

namespace Scanner

variable {parsers : Parsers} {catalog : List FeatureRecord} {settings : ScanSettings}

/-- **The issues of a file** are accounted for by the catalog. -/
theorem exists_accounted_of_mem_scanFile {file : SourceFile} {i : Issue}
    (h : i ∈ (ofCatalog parsers catalog settings).scanFile file) :
    ∃ language r, Accounted parsers catalog settings file language r i := by
  obtain ⟨language, hlanguage, f, shown, point, huse, rfl⟩ :=
    (ofCatalog parsers catalog settings).exists_use_of_mem_scanFile h
  have hlookup : (ofCatalog parsers catalog settings).index.lookup = search catalog :=
    funext fun id => lookup_build catalog _ _ id
  have hscript : (ofCatalog parsers catalog settings).index.scriptFeature =
      searchScript catalog (.withExtras settings.extraNames.entries) :=
    funext fun name => scriptFeature_build catalog _ _ name
  rw [hlookup, hscript] at huse
  obtain ⟨before, r, after, hsplit, hbefore, hid, rfl⟩ := exists_first_of_search huse.found
  refine ⟨language, r, {
    path := rfl
    ofPath := hlanguage
    first := ⟨before, after, hsplit, hbefore⟩
    featureId := rfl
    status := rfl
    priority := ?_
    use := ⟨point, rfl, huse⟩
    name := ?_
    starts := huse.starts }⟩
  · have hpolicy : (ofCatalog parsers catalog settings).index.policy = settings.priority :=
      policy_build catalog _ _
    rw [← hpolicy]
    rfl
  · have hname := huse.shown_eq
    rwa [ofRecord_eq] at hname

/-- The issues of a run are issues of its files. -/
theorem exists_mem_scanFile_of_mem_run (s : Scanner) {σ : Type} {c : Canceller σ}
    {files : List SourceFile} {i : Issue} (h : i ∈ (s.run c files).result.issues) :
    ∃ file ∈ files, i ∈ s.scanFile file := by
  obtain ⟨count, hstops, -⟩ := s.exists_result_run c files
  rw [s.issues_run hstops] at h
  obtain ⟨file, hfile, hi⟩ := List.mem_flatMap.mp h
  have htake := (stablySorted_sortByPath (files.take count)).permuted.mem_iff.mp hfile
  exact ⟨file, List.mem_of_mem_take htake, hi⟩

/-- **No records.**  Without records there are no issues, and the score is full. -/
theorem result_run_nil {σ : Type} (parsers : Parsers) (settings : ScanSettings) (c : Canceller σ)
    (files : List SourceFile) :
    ((ofCatalog parsers [] settings).run c files).result.issues = [] ∧
      ((ofCatalog parsers [] settings).run c files).result.score = 100 := by
  have hnone : ((ofCatalog parsers [] settings).run c files).result.issues = [] := by
    rw [List.eq_nil_iff_forall_not_mem]
    intro i hi
    obtain ⟨file, -, hmem⟩ := exists_mem_scanFile_of_mem_run _ hi
    obtain ⟨_, r, hr⟩ := exists_accounted_of_mem_scanFile hmem
    obtain ⟨before, after, hsplit, -⟩ := hr.first
    exact List.append_ne_nil_of_right_ne_nil before (List.cons_ne_nil r after) hsplit.symm
  obtain ⟨count, -, hresult⟩ := (ofCatalog parsers [] settings).exists_result_run c files
  have hderived := ScanResult.derived_ofIssues
    ((files.take count).flatMap (ofCatalog parsers [] settings).scanFile)
  rw [← hresult] at hderived
  exact ⟨hnone, hderived.score_nil hnone⟩

/-- **Issues are sound.**  For all parsers, catalogs and settings, and every run over any files,
whatever cancels it:

* each issue stands for a use in one of the files and says what the catalog says of it: its
  identifier is that of a record, and its status, priority and name are those of the first such
  record, but for the names of key words in style sheets;
* issues with one identifier agree on status and priority;
* without records there are no issues, and the score is full. -/
theorem issues_accounted {σ : Type} (parsers : Parsers) (catalog : List FeatureRecord)
    (settings : ScanSettings) (c : Canceller σ) (files : List SourceFile) :
    let result := ((ofCatalog parsers catalog settings).run c files).result
    (∀ i ∈ result.issues, ∃ file ∈ files, ∃ language r,
      Accounted parsers catalog settings file language r i) ∧
    (∀ i ∈ result.issues, ∀ j ∈ result.issues, i.featureId = j.featureId →
      i.status = j.status ∧ i.priority = j.priority) ∧
    (catalog = [] → result.issues = [] ∧ result.score = 100) := by
  intro result
  have hall : ∀ i ∈ result.issues, ∃ file ∈ files, ∃ language r,
      Accounted parsers catalog settings file language r i := by
    intro i hi
    obtain ⟨file, hfile, hmem⟩ := exists_mem_scanFile_of_mem_run _ hi
    exact ⟨file, hfile, exists_accounted_of_mem_scanFile hmem⟩
  refine ⟨hall, fun i hi j hj hsame => ?_, fun hempty => ?_⟩
  · obtain ⟨_, _, _, r, hr⟩ := hall i hi
    obtain ⟨_, _, _, q, hq⟩ := hall j hj
    have hfind : catalog.find? (·.identifier == i.featureId) = some q := hsame ▸ hq.find?_eq
    obtain rfl : r = q := Option.some.inj (hr.find?_eq.symm.trans hfind)
    exact ⟨hr.status.trans hq.status.symm, hr.priority.trans hq.priority.symm⟩
  · subst hempty
    exact result_run_nil parsers settings c files

end Scanner

end WebBaseline
