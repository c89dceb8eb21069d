import WebBaseline.Proofs.Scan.FileOrder
import WebBaseline.Proofs.Scan.Resolution

/-!
# Appended records

Records that are appended to a catalog neither change nor hide what was found
before.  No new record comes before an old one with its identifier, none takes
a name of scripts away from an old one, and an issue of a style sheet can only
be dropped for an earlier one with the same identifier.

* `Narrows` — an index that finds what another one finds, if it has one of some
  identifiers;
* `filter_dropRepeated` — dropping repeated issues goes by identifiers;
* `Narrows.scanFile_eq` — the issues of a file;
* `issues_of_appended` — the issues of every run.
-/

namespace WebBaseline

/-- Whether an index finds exactly what another one finds with some identifiers. -/
structure Narrows (known : String → Bool) (small big : FeatureIndex) : Prop where
  lookup : ∀ id, small.lookup id = (big.lookup id).filter fun f => known f.identifier
  scriptFeature : ∀ name,
    small.scriptFeature name = (big.scriptFeature name).filter fun f => known f.identifier
  policy : small.policy = big.policy

/-- Two indices are as their catalogs are: it suffices to find records by identifier and by the
fragments of the table. -/
theorem narrows_build {known : String → Bool} {few many : List FeatureRecord} {table : NameTable}
    {policy : PriorityPolicy}
    (hidentifier : ∀ id, few.find? (·.identifier == id) =
      (many.find? (·.identifier == id)).filter fun r => known r.identifier)
    (hfragment : ∀ name fragment, table.fragment? name = some fragment →
      few.find? (FeatureIndex.matchesFragment fragment) =
        (many.find? (FeatureIndex.matchesFragment fragment)).filter fun r => known r.identifier) :
    Narrows known (.build few table policy) (.build many table policy) where
  lookup := by
    intro id
    rw [FeatureIndex.lookup_build, FeatureIndex.lookup_build]
    exact FeatureIndex.search_filter (hidentifier id)
  scriptFeature := by
    intro name
    rw [FeatureIndex.scriptFeature_build, FeatureIndex.scriptFeature_build]
    exact FeatureIndex.searchScript_filter (hfragment name)
  policy := by rw [FeatureIndex.policy_build, FeatureIndex.policy_build]

/-- The index of a catalog finds what that of a longer one finds with its identifiers. -/
theorem narrows_build_append (catalog more : List FeatureRecord) (table : NameTable)
    (policy : PriorityPolicy) :
    Narrows (FeatureIndex.knows catalog) (.build catalog table policy)
      (.build (catalog ++ more) table policy) :=
  narrows_build
    (fun id => FeatureIndex.find?_append_filter (FeatureIndex.hasIdentifier_congr id) catalog more)
    fun _ fragment _ => FeatureIndex.find?_append_filter
      (FeatureIndex.matchesFragment_congr fragment) catalog more

namespace Scan

/-- **Repeated issues.**  An issue is only dropped for an earlier one of its feature, so the issues
of some features can be taken before or after that. -/
theorem filter_dropRepeated {known : String → Bool} {issues : List Issue}
    {seen other : Std.HashSet (String × UInt32)}
    (hseen : ∀ id line, known id = true → seen.contains (id, line) = other.contains (id, line)) :
    (dropRepeated issues seen).filter (fun i => known i.featureId) =
      dropRepeated (issues.filter fun i => known i.featureId) other := by
  induction issues generalizing seen other with
  | nil => rfl
  | cons i rest ih =>
      rw [dropRepeated, List.filter_cons]
      cases hknown : known i.featureId with
      | true =>
          rw [if_pos rfl, dropRepeated, ← hseen _ i.line hknown]
          split
          · exact ih hseen
          · rw [List.filter_cons, hknown, if_pos rfl, ih fun id line hid => ?_]
            rw [Std.HashSet.contains_insert, Std.HashSet.contains_insert, hseen id line hid]
      | false =>
          rw [if_neg Bool.false_ne_true]
          split
          · exact ih hseen
          · rw [List.filter_cons, hknown, if_neg Bool.false_ne_true, ih fun id line hid => ?_]
            -- What is newly seen is of another feature than those that count.
            have hother : i.featureId ≠ id := by
              intro heq
              rw [heq, hid] at hknown
              cases hknown
            rw [Std.HashSet.contains_insert, ← hseen id line hid]
            simp [hother]

end Scan

namespace Narrows

variable {known : String → Bool} {small big : FeatureIndex} (h : Narrows known small big)
  {path source : String} {rules : StyleRules}
include h

/-- Both indices make the same issue of a feature. -/
theorem issueAt_eq : small.issueAt = big.issueAt := by
  funext path f name place
  rw [FeatureIndex.issueAt, FeatureIndex.issueAt, FeatureIndex.priorityOf,
    FeatureIndex.priorityOf, h.policy]

/-- Issues that are made of features are those of the features that count. -/
theorem filter_map_issueAt (found : Option IndexedFeature) (name : IndexedFeature → String)
    (place : Location) :
    (found.filter fun f => known f.identifier).map
        (fun f => small.issueAt path f (name f) place) =
      (found.map fun f => big.issueAt path f (name f) place).filter
        fun i => known i.featureId := by
  rw [h.issueAt_eq, Option.filter_map]
  rfl

/-- The issues of a script. -/
theorem scriptIssues_eq (tree : SyntaxTree) :
    Scan.scriptIssues small path source tree =
      (Scan.scriptIssues big path source tree).filter fun i => known i.featureId := by
  rw [Scan.scriptIssues, Scan.scriptIssues, List.filter_filterMap]
  refine List.filterMap_congr fun node _ => ?_
  unfold Scan.scriptIssue?
  split
  · rw [h.scriptFeature]
    exact h.filter_map_issueAt _ (·.name) _
  · rfl

/-- The feature of a child of a tag. -/
theorem namedFeature?_eq (kind start : String) (node : SyntaxTree) :
    Scan.namedFeature? small source kind start node =
      (Scan.namedFeature? big source kind start node).filter fun f => known f.identifier := by
  unfold Scan.namedFeature?
  cases node.child? kind with
  | none => rfl
  | some name => exact h.lookup _

/-- The features of a tag. -/
theorem tagFeatures_eq (tag : SyntaxTree) :
    Scan.tagFeatures small source tag =
      (Scan.tagFeatures big source tag).filter fun f => known f.identifier := by
  simp only [Scan.tagFeatures, List.filter_append, List.filter_filterMap, ← Option.toList_filter,
    ← h.namedFeature?_eq]

/-- The issues of a markup document. -/
theorem markupIssues_eq (tree : SyntaxTree) :
    Scan.markupIssues small path source tree =
      (Scan.markupIssues big path source tree).filter fun i => known i.featureId := by
  rw [Scan.markupIssues, Scan.markupIssues, List.filter_flatMap]
  refine List.flatMap_congr fun node _ => ?_
  unfold Scan.tagIssues
  split
  · rw [h.tagFeatures_eq, h.issueAt_eq, List.filter_map]
    rfl
  · rfl

/-- A look-up among some statuses. -/
theorem lookupAmong_eq (statuses : List Status) (identifier : String) :
    Scan.lookupAmong small statuses identifier =
      (Scan.lookupAmong big statuses identifier).filter fun f => known f.identifier := by
  rw [Scan.lookupAmong, Scan.lookupAmong, h.lookup, Option.filter_filter, Option.filter_filter]
  congr 1
  funext f
  exact Bool.and_comm _ _

/-- The use of a property. -/
theorem propertyCandidate_eq (property : String) (declaration : SyntaxTree) :
    Scan.propertyCandidate rules small path property declaration =
      (Scan.propertyCandidate rules big path property declaration).filter
        fun i => known i.featureId := by
  rw [Scan.propertyCandidate, h.lookupAmong_eq]
  exact h.filter_map_issueAt _ (·.name) _

/-- The use of a key word. -/
theorem valueCandidate_eq (property : String) (keyword : SyntaxTree) :
    Scan.valueCandidate rules small path source property keyword =
      (Scan.valueCandidate rules big path source property keyword).filter
        fun i => known i.featureId := by
  unfold Scan.valueCandidate
  dsimp only
  split
  · rfl
  · rw [h.lookupAmong_eq]
    exact h.filter_map_issueAt _ (fun _ => _) _

/-- The uses in a declaration. -/
theorem candidates_eq (declaration : SyntaxTree) :
    Scan.candidates rules small path source declaration =
      (Scan.candidates rules big path source declaration).filter fun i => known i.featureId := by
  unfold Scan.candidates
  split
  · rfl
  · rename_i property _
    rw [List.filter_append, ← Option.toList_filter, ← h.propertyCandidate_eq]
    congr 1
    split
    · rw [List.filter_filterMap]
      exact List.filterMap_congr fun keyword _ => h.valueCandidate_eq property keyword
    · rfl

/-- The issues of a style sheet. -/
theorem styleIssues_eq (tree : SyntaxTree) :
    Scan.styleIssues rules small path source tree =
      (Scan.styleIssues rules big path source tree).filter fun i => known i.featureId := by
  have hcandidates : (tree.descendants "declaration").flatMap
        (Scan.candidates rules small path source) =
      (tree.descendants "declaration").flatMap fun declaration =>
        (Scan.candidates rules big path source declaration).filter fun i => known i.featureId :=
    List.flatMap_congr fun declaration _ => h.candidates_eq declaration
  rw [Scan.styleIssues, Scan.styleIssues, Scan.filter_dropRepeated fun _ _ _ => rfl,
    List.filter_flatMap, hcandidates]

/-- **The issues of a file** are those of the features that count. -/
theorem scanFile_eq (parsers : Parsers) (languages : List ScanLanguage) (file : SourceFile) :
    Scanner.scanFile ⟨parsers, small, rules, languages⟩ file =
      (Scanner.scanFile ⟨parsers, big, rules, languages⟩ file).filter
        fun i => known i.featureId := by
  unfold Scanner.scanFile
  split
  · rename_i language _
    dsimp only
    split
    · cases language with
      | script => exact h.scriptIssues_eq _
      | style => exact h.styleIssues_eq _
      | markup => exact h.markupIssues_eq _
    · rfl
  · rfl

end Narrows

namespace Scanner

/-- **Appended records.**  For all parsers, settings, catalogs and files, and whatever cancels the
runs: the issues under a catalog are those under a longer one whose identifier a record of the
shorter one has, in the same order and with the same parts. -/
theorem issues_of_appended {σ : Type} (parsers : Parsers) (settings : ScanSettings)
    (c : Canceller σ) (files : List SourceFile) (catalog more : List FeatureRecord) :
    let issues := fun catalog =>
      ((ofCatalog parsers catalog settings).run c files).result.issues
    issues catalog = (issues (catalog ++ more)).filter fun i =>
      catalog.any (·.identifier == i.featureId) := by
  intro issues
  obtain ⟨count, hstops, -⟩ :=
    (ofCatalog parsers catalog settings).exists_result_run c files
  have hnarrows := narrows_build_append catalog more
    (.withExtras settings.extraNames.entries) settings.priority
  change ((ofCatalog parsers catalog settings).run c files).result.issues =
    ((ofCatalog parsers (catalog ++ more) settings).run c files).result.issues.filter _
  rw [issues_run _ hstops, issues_run _ hstops, List.filter_flatMap]
  exact List.flatMap_congr fun file _ => hnarrows.scanFile_eq parsers ScanLanguage.all file

end Scanner

end WebBaseline
