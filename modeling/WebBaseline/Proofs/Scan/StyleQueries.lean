import WebBaseline.Proofs.Scan.FirstOccurrence
import WebBaseline.Proofs.Scan.Resolution
import WebBaseline.Proofs.Scan.Uses

/-!
# What is reported of a style sheet

A style sheet asks a catalog for identifiers: each declaration for that of its
property, and then for those of the property with each of its key words.  What
the catalog has for a question, with a status that counts, is a candidate, and
of the candidates of one feature on one line the first one is reported.  The
questions do not depend on the catalog, and no candidate is lost to one that
does not count.

* `StyleQuery`, `styleQueries` — the questions of a style sheet;
* `property?_eq_some_iff` — the property of a declaration;
* `StyleQuery.candidate?` — what a catalog has for a question;
* `candidates_build` — the uses in a declaration are the candidates of its questions;
* `dropRepeated_eq` — repeated issues are dropped by feature and line;
* `style_issues_are_first_candidates` — the issues of every style sheet.
-/

namespace WebBaseline

/-- The feature of an issue with the line on which it is used. -/
def Issue.featureOnLine (i : Issue) : String × UInt32 := (i.featureId, i.line)

namespace Scan

/-! ### Questions -/

/-- A question to a catalog. -/
structure StyleQuery where
  identifier : String
  /-- The name that is shown for what is found, unless it is the feature's own. -/
  shown : Option String
  /-- Where the question arises. -/
  point : Point
  /-- The statuses of features that count. -/
  statuses : List Status

/-- The word that a node stands for: its text without blanks around it, in lower case. -/
def wordOf (source : String) (node : SyntaxTree) : String :=
  Text.lower (Text.trim (node.text source))

/-- Whether a declaration is one of a property: the word of its first name, which is not empty, and
does not start as that of a custom property. -/
structure Declares (source : String) (declaration : SyntaxTree) (property : String) : Prop where
  named : ∃ name, declaration.children.find? (·.kind == "property_name") = some name ∧
    wordOf source name = property
  nonempty : property ≠ ""
  notCustom : ¬ "--".toList <+: property.toList

variable (rules : StyleRules) (source : String)

/-- The question for a property. -/
def propertyQuery (property : String) (declaration : SyntaxTree) : StyleQuery where
  identifier := "css-properties-" ++ property
  shown := none
  point := declaration.point
  statuses := rules.propertyStatuses

/-- The question for a property with a key word. -/
def keywordQuery (property : String) (keyword : SyntaxTree) : StyleQuery where
  identifier := "css-properties-" ++ property ++ "-" ++ wordOf source keyword
  shown := some (property ++ ": " ++ wordOf source keyword)
  point := keyword.point
  statuses := rules.valueStatuses

/-- The key words in a declaration, in the order of the text. -/
def keywordsOf (declaration : SyntaxTree) : List SyntaxTree :=
  declaration.preorder.filter fun node => node.kind = "plain_value" ∧ wordOf source node ≠ ""

/-- The questions of a declaration: that for its property, then those for its key words. -/
def declarationQueries (declaration : SyntaxTree) : List StyleQuery :=
  match property? source declaration with
  | none => []
  | some property =>
    propertyQuery rules property declaration ::
      if rules.scanValues then
        (keywordsOf source declaration).map (keywordQuery rules source property)
      else []

/-- The questions of a style sheet, in the order of its declarations. -/
def styleQueries (tree : SyntaxTree) : List StyleQuery :=
  (tree.preorder.filter (·.kind = "declaration")).flatMap (declarationQueries rules source)

variable {rules source}

/-- The property of a declaration is the one that it declares. -/
theorem property?_eq_some_iff {declaration : SyntaxTree} {property : String} :
    property? source declaration = some property ↔ Declares source declaration property := by
  unfold property?
  rw [SyntaxTree.child?]
  cases hname : declaration.children.find? (·.kind == "property_name") with
  | none =>
      refine ⟨nofun, fun h => ?_⟩
      obtain ⟨name, hsome, -⟩ := h.named
      rw [hname] at hsome
      cases hsome
  | some name =>
      have hrefused : ((wordOf source name).isEmpty || (wordOf source name).startsWith "--") = true ↔
          wordOf source name = "" ∨ "--".toList <+: (wordOf source name).toList := by
        rw [Bool.or_eq_true, String.isEmpty_iff, String.startsWith_string_iff]
      change (if (wordOf source name).isEmpty || (wordOf source name).startsWith "--" then none
        else some (wordOf source name)) = some property ↔ _
      constructor
      · intro h
        split at h
        next => cases h
        next hproper =>
          obtain rfl := Option.some.inj h
          obtain ⟨hnonempty, hcustom⟩ := not_or.mp (mt hrefused.mpr hproper)
          exact ⟨⟨name, hname, rfl⟩, hnonempty, hcustom⟩
      · rintro ⟨⟨other, hother, rfl⟩, hnonempty, hcustom⟩
        obtain rfl := Option.some.inj (hname.symm.trans hother)
        exact if_neg (mt hrefused.mp (not_or.mpr ⟨hnonempty, hcustom⟩))

/-- A declaration of a custom property asks for nothing. -/
theorem declarationQueries_custom {declaration name : SyntaxTree}
    (hname : declaration.child? "property_name" = some name)
    (hcustom : "--".toList <+: (wordOf source name).toList) :
    declarationQueries rules source declaration = [] := by
  cases hproperty : property? source declaration with
  | none => rw [declarationQueries, hproperty]
  | some property =>
      obtain ⟨⟨other, hother, rfl⟩, -, hproper⟩ := property?_eq_some_iff.mp hproperty
      obtain rfl := Option.some.inj (hname.symm.trans hother)
      exact absurd hcustom hproper

/-! ### Candidates -/

/-- What a catalog has for a question: the first record with the identifier, if its status is one
that counts. -/
def StyleQuery.candidate? (catalog : List FeatureRecord) (policy : PriorityPolicy) (path : String)
    (q : StyleQuery) : Option Issue :=
  match catalog.find? (·.identifier == q.identifier) with
  | none => none
  | some r =>
    if r.status ∈ q.statuses then
      some
        { file := path, featureId := q.identifier, name := q.shown.getD r.displayName
          status := r.status, priority := policy.priorityOf r.status
          line := (Location.ofPoint q.point).line, column := (Location.ofPoint q.point).column }
    else none

/-- A candidate is on the line of its question, and of the feature that this asks for. -/
theorem StyleQuery.featureOnLine_candidate? {catalog : List FeatureRecord}
    {policy : PriorityPolicy} {path : String} {q : StyleQuery} {i : Issue}
    (h : q.candidate? catalog policy path = some i) :
    i.featureOnLine = (q.identifier, (Location.ofPoint q.point).line) := by
  unfold candidate? at h
  split at h
  next => cases h
  next r _ =>
    split at h
    next => exact Option.some.inj h ▸ rfl
    next => cases h

section Catalog

variable (catalog : List FeatureRecord) (table : NameTable) (policy : PriorityPolicy)
  (path : String)

/-- **A look-up** in the index of a catalog comes to what the catalog has for the question. -/
theorem map_lookupAmong_build (q : StyleQuery) :
    (lookupAmong (.build catalog table policy) q.statuses q.identifier).map (fun f =>
        (FeatureIndex.build catalog table policy).issueAt path f (q.shown.getD f.name)
          (.ofPoint q.point)) =
      q.candidate? catalog policy path := by
  rw [lookupAmong, FeatureIndex.lookup_build, FeatureIndex.search, StyleQuery.candidate?]
  cases hfind : catalog.find? (·.identifier == q.identifier) with
  | none => rfl
  | some r =>
      have hid : r.identifier = q.identifier := by simpa using List.find?_some hfind
      have hcontains : q.statuses.contains (IndexedFeature.ofRecord r).status = true ↔
          r.status ∈ q.statuses := List.contains_iff_mem
      simp only [Option.map_some, Option.filter_some, hcontains]
      split
      · rw [Option.map_some, FeatureIndex.issueAt, FeatureIndex.priorityOf,
          FeatureIndex.policy_build, ← hid]
        rfl
      · rfl

/-- The use of a property is the candidate of its question. -/
theorem propertyCandidate_build (property : String) (declaration : SyntaxTree) :
    propertyCandidate rules (.build catalog table policy) path property declaration =
      (propertyQuery rules property declaration).candidate? catalog policy path :=
  map_lookupAmong_build catalog table policy path (propertyQuery rules property declaration)

/-- The use of a key word is the candidate of its question, if it is one. -/
theorem valueCandidate_build (property : String) (keyword : SyntaxTree) :
    valueCandidate rules (.build catalog table policy) path source property keyword =
      if wordOf source keyword = "" then none
      else (keywordQuery rules source property keyword).candidate? catalog policy path := by
  have hword : Text.lower (Text.trim (keyword.text source)) = wordOf source keyword := rfl
  unfold valueCandidate
  simp only [hword, String.isEmpty_iff]
  split
  next => rfl
  next =>
    exact map_lookupAmong_build catalog table policy path
      (keywordQuery rules source property keyword)

/-- The uses of key words are the candidates of their questions. -/
theorem filterMap_valueCandidate_build (property : String) (declaration : SyntaxTree) :
    (declaration.descendants "plain_value").filterMap
        (valueCandidate rules (.build catalog table policy) path source property) =
      ((keywordsOf source declaration).map (keywordQuery rules source property)).filterMap
        (StyleQuery.candidate? catalog policy path) := by
  rw [SyntaxTree.descendants, SyntaxTree.visit_singleton, keywordsOf, List.filterMap_map,
    List.filterMap_filter, List.filterMap_filter]
  refine List.filterMap_congr fun node _ => ?_
  rw [valueCandidate_build]
  by_cases hkind : node.kind = "plain_value" <;>
    by_cases hword : wordOf source node = "" <;> simp [hkind, hword]

/-- **The uses in a declaration** are the candidates of its questions. -/
theorem candidates_build (declaration : SyntaxTree) :
    candidates rules (.build catalog table policy) path source declaration =
      (declarationQueries rules source declaration).filterMap
        (StyleQuery.candidate? catalog policy path) := by
  unfold candidates declarationQueries
  cases property? source declaration with
  | none => rfl
  | some property =>
      have hcons : ∀ queries : List StyleQuery,
          (propertyQuery rules property declaration :: queries).filterMap
              (StyleQuery.candidate? catalog policy path) =
            ((propertyQuery rules property declaration).candidate? catalog policy path).toList ++
              queries.filterMap (StyleQuery.candidate? catalog policy path) := by
        intro queries
        rw [List.filterMap_cons]
        cases (propertyQuery rules property declaration).candidate? catalog policy path <;> rfl
      dsimp only
      rw [hcons, propertyCandidate_build]
      cases rules.scanValues with
      | true =>
          rw [if_pos rfl, if_pos rfl, filterMap_valueCandidate_build]
      | false => rfl

end Catalog

/-- **Repeated issues** are dropped: of the issues that were not seen before, the first one of each
feature on each line is kept. -/
theorem dropRepeated_eq (issues : List Issue) (seen : Std.HashSet (String × UInt32)) :
    dropRepeated issues seen =
      firstsBy Issue.featureOnLine (issues.filter fun i => !seen.contains i.featureOnLine) := by
  induction issues generalizing seen with
  | nil => rfl
  | cons i rest ih =>
      rw [dropRepeated, List.filter_cons]
      change (if seen.contains i.featureOnLine = true then _ else _) = _
      cases hseen : seen.contains i.featureOnLine with
      | true => exact ih seen
      | false =>
          simp only [Bool.false_eq_true, if_false, Bool.not_false, if_true]
          rw [firstsBy_cons, ih, List.filter_filter]
          congr 2
          refine List.filter_congr fun j _ => ?_
          change (!(seen.insert i.featureOnLine).contains j.featureOnLine) = _
          rw [Std.HashSet.contains_insert]
          by_cases hsame : j.featureOnLine = i.featureOnLine
          · simp [hsame]
          · simp [hsame, Ne.symm hsame]

/-! ### Issues -/

/-- The issues of a style sheet are the first candidates of each feature on each line. -/
theorem styleIssues_build (catalog : List FeatureRecord) (table : NameTable)
    (policy : PriorityPolicy) (path : String) (tree : SyntaxTree) :
    styleIssues rules (.build catalog table policy) path source tree =
      firstsBy Issue.featureOnLine
        ((styleQueries rules source tree).filterMap
          (StyleQuery.candidate? catalog policy path)) := by
  -- The scanner starts without anything seen, so nothing is filtered out before.
  have hunseen : ∀ issues : List Issue,
      (issues.filter fun i => !(∅ : Std.HashSet (String × UInt32)).contains i.featureOnLine) =
        issues := fun issues => by simp
  have hdeclarations : tree.descendants "declaration" =
      tree.preorder.filter (·.kind = "declaration") := by
    rw [SyntaxTree.descendants, SyntaxTree.visit_singleton]
    exact List.filter_congr fun node _ => beq_eq_decide node.kind "declaration"
  rw [styleIssues, dropRepeated_eq, hunseen, hdeclarations, styleQueries, List.filterMap_flatMap]
  exact congrArg _ (List.flatMap_congr fun declaration _ =>
    candidates_build catalog table policy path declaration)

/-- **The issues of a style sheet.**  For all rules, catalogs, tables of names, policies, texts and
syntax trees, in which declarations may be nested and names may be missing:

* the questions of the style sheet are those of its declarations, in the order of the text; a
  declaration has a property if its first name is a word that is not that of a custom property;
* the issues are the candidates of these questions without those whose feature an earlier candidate
  has on the same line;
* so no two issues are of one feature on one line, and the issue of a feature on a line is the first
  candidate of this feature on this line;
* whenever a question finds a status that counts for it, the feature that it asks for is reported on
  its line, whether or not it does for other questions for this feature;
* issues stem from declarations of properties, so those of custom properties give none. -/
theorem style_issues_are_first_candidates (rules : StyleRules) (catalog : List FeatureRecord)
    (table : NameTable) (policy : PriorityPolicy) (path source : String) (tree : SyntaxTree) :
    let queries := styleQueries rules source tree
    let candidates := queries.filterMap (StyleQuery.candidate? catalog policy path)
    let issues := styleIssues rules (.build catalog table policy) path source tree
    (∀ declaration property, property? source declaration = some property ↔
      Declares source declaration property) ∧
    issues = firstsBy Issue.featureOnLine candidates ∧
    issues.Pairwise (fun i j => i.featureOnLine ≠ j.featureOnLine) ∧
    (∀ use, issues.find? (·.featureOnLine = use) = candidates.find? (·.featureOnLine = use)) ∧
    (∀ q ∈ queries, ∀ r, catalog.find? (·.identifier == q.identifier) = some r →
      r.status ∈ q.statuses →
        ∃ i ∈ issues, i.featureId = q.identifier ∧ i.line = (Location.ofPoint q.point).line) ∧
    (∀ i ∈ issues, ∃ declaration ∈ tree.preorder, declaration.kind = "declaration" ∧
      (∃ property, Declares source declaration property) ∧
      ∃ q ∈ declarationQueries rules source declaration,
        q.candidate? catalog policy path = some i) ∧
    ∀ declaration name, declaration.child? "property_name" = some name →
      "--".toList <+: (wordOf source name).toList →
        declarationQueries rules source declaration = [] := by
  intro queries candidates issues
  have hissues : issues = firstsBy Issue.featureOnLine candidates :=
    styleIssues_build catalog table policy path tree
  refine ⟨fun _ _ => property?_eq_some_iff, hissues, ?_, ?_, ?_, ?_,
    fun _ _ => declarationQueries_custom⟩
  · rw [hissues]
    exact pairwise_firstsBy candidates
  · intro use
    rw [hissues]
    exact find?_firstsBy (fun i j hij => by rw [hij]) candidates
  · intro q hq r hfind hcounts
    have hcandidate : ∃ c, q.candidate? catalog policy path = some c := by
      unfold StyleQuery.candidate?
      rw [hfind]
      exact ⟨_, if_pos hcounts⟩
    obtain ⟨c, hc⟩ := hcandidate
    have hmem : c ∈ candidates := List.mem_filterMap.mpr ⟨q, hq, hc⟩
    obtain ⟨i, hi, hsame⟩ : ∃ i ∈ firstsBy Issue.featureOnLine candidates,
        i.featureOnLine = c.featureOnLine := exists_mem_firstsBy hmem
    rw [StyleQuery.featureOnLine_candidate? hc] at hsame
    rw [hissues]
    exact ⟨i, hi, congrArg Prod.fst hsame, congrArg Prod.snd hsame⟩
  · intro i hi
    rw [hissues] at hi
    obtain ⟨q, hq, hcandidate⟩ := List.mem_filterMap.mp (mem_of_mem_firstsBy hi)
    obtain ⟨declaration, hdeclaration, hasked⟩ := List.mem_flatMap.mp hq
    obtain ⟨hmem, hkind⟩ := List.mem_filter.mp hdeclaration
    refine ⟨declaration, hmem, of_decide_eq_true hkind, ?_, q, hasked, hcandidate⟩
    cases hproperty : property? source declaration with
    | none =>
        rw [declarationQueries, hproperty] at hasked
        exact absurd hasked List.not_mem_nil
    | some property => exact ⟨property, property?_eq_some_iff.mp hproperty⟩

end Scan

end WebBaseline
