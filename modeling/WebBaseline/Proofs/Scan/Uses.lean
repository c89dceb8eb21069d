import WebBaseline.Proofs.SyntaxTree.Preorder
import WebBaseline.Scan.Run

/-!
# Uses of features

What an issue stands for: a node of the tree that was scanned, and a feature
that was found for it.  `Use` says for each language which nodes count, how the
feature is found and which name the issue shows.

* `use_of_mem_scriptIssues`, `use_of_mem_markupIssues`, `use_of_mem_styleIssues` —
  the scanners report nothing but uses;
* `Scanner.exists_use_of_mem_scanFile` — the issues of a file.
-/

namespace WebBaseline

/-- The tree of a text in a language. -/
def Parsers.tree (p : Parsers) (language : ScanLanguage) (path source : String) : SyntaxTree :=
  match language with
  | .script => p.script (ScanLanguage.isPlainTyped path) source
  | .style => p.style source
  | .markup => p.markup source

namespace Scan

/-! ### The nodes that count -/

/-- The kinds of nodes that hold a name of a script as it is written: the names of values, of
properties and of types, and the short forms in which a property has the name of its value. -/
def IsNameKind (kind : String) : Prop :=
  kind = "identifier" ∨ kind = "property_identifier" ∨ kind = "type_identifier" ∨
    kind = "shorthand_property_identifier" ∨ kind = "shorthand_property_identifier_pattern"

/-- The kinds of tags that open an element. -/
def IsOpeningTag (kind : String) : Prop := kind = "start_tag" ∨ kind = "self_closing_tag"

instance (kind : String) : Decidable (IsNameKind kind) := inferInstanceAs (Decidable (_ ∨ _))

instance (kind : String) : Decidable (IsOpeningTag kind) := inferInstanceAs (Decidable (_ ∨ _))

/-- The scanner of scripts asks about these nodes. -/
theorem contains_nameKinds_iff {kind : String} :
    nameKinds.contains kind = true ↔ IsNameKind kind := by
  simp [nameKinds, IsNameKind]

/-- The scanner of markup asks about these tags. -/
theorem contains_openingTags_iff {kind : String} :
    openingTags.contains kind = true ↔ IsOpeningTag kind := by
  simp [openingTags, IsOpeningTag]

/-! ### Uses -/

/-- A use of a feature in a tree: the language, the name that is shown for it, and where it is.
Features are found by identifier or, in scripts, by name. -/
inductive Use (rules : StyleRules) (byIdentifier byName : String → Option IndexedFeature)
    (source : String) (tree : SyntaxTree) (f : IndexedFeature) :
    ScanLanguage → String → Point → Prop
  /-- A name in a script. -/
  | name {node : SyntaxTree} (mem : node ∈ tree.preorder) (kind : IsNameKind node.kind)
      (found : byName (node.text source) = some f) :
      Use rules byIdentifier byName source tree f .script f.name node.point
  /-- The element of a tag. -/
  | tagName {tag name : SyntaxTree} (mem : tag ∈ tree.preorder) (kind : IsOpeningTag tag.kind)
      (named : tag.child? "tag_name" = some name)
      (found : byIdentifier ("html-element-" ++ Text.lower (name.text source)) = some f) :
      Use rules byIdentifier byName source tree f .markup f.name tag.point
  /-- An attribute of a tag. -/
  | attributeName {tag child name : SyntaxTree} (mem : tag ∈ tree.preorder)
      (kind : IsOpeningTag tag.kind) (below : child ∈ tag.children)
      (isAttribute : child.kind = "attribute")
      (named : child.child? "attribute_name" = some name)
      (found : byIdentifier ("html-attribute-" ++ Text.lower (name.text source)) = some f) :
      Use rules byIdentifier byName source tree f .markup f.name tag.point
  /-- The property of a declaration. -/
  | property {declaration : SyntaxTree} {property : String} (mem : declaration ∈ tree.preorder)
      (kind : declaration.kind = "declaration")
      (named : property? source declaration = some property)
      (found : byIdentifier ("css-properties-" ++ property) = some f)
      (asked : f.status ∈ rules.propertyStatuses) :
      Use rules byIdentifier byName source tree f .style f.name declaration.point
  /-- A key word in the value of a declaration. -/
  | keyword {declaration keyword : SyntaxTree} {property value : String}
      (mem : declaration ∈ tree.preorder) (kind : declaration.kind = "declaration")
      (named : property? source declaration = some property) (scanned : rules.scanValues = true)
      (inside : keyword ∈ declaration.preorder) (isKeyword : keyword.kind = "plain_value")
      (text : Text.lower (Text.trim (keyword.text source)) = value) (nonempty : value ≠ "")
      (found : byIdentifier ("css-properties-" ++ property ++ "-" ++ value) = some f)
      (asked : f.status ∈ rules.valueStatuses) :
      Use rules byIdentifier byName source tree f .style (property ++ ": " ++ value) keyword.point

/-- Whether an issue is made from a use in a tree. -/
def Reports (rules : StyleRules) (index : FeatureIndex) (path source : String)
    (tree : SyntaxTree) (language : ScanLanguage) (i : Issue) : Prop :=
  ∃ f shown point, Use rules index.lookup index.scriptFeature source tree f language shown point ∧
    i = index.issueAt path f shown (.ofPoint point)

variable {rules : StyleRules} {index : FeatureIndex} {path source : String}
  {tree declaration : SyntaxTree} {i : Issue}

/-- The scanner of scripts reports names. -/
theorem use_of_mem_scriptIssues (h : i ∈ scriptIssues index path source tree) :
    Reports rules index path source tree .script i := by
  obtain ⟨node, hnode, hissue⟩ := List.mem_filterMap.mp h
  rw [SyntaxTree.visit_singleton] at hnode
  unfold scriptIssue? at hissue
  split at hissue
  · rename_i hkind
    obtain ⟨f, hfound, rfl⟩ := Option.map_eq_some_iff.mp hissue
    exact ⟨f, _, _, .name hnode (contains_nameKinds_iff.mp hkind) hfound, rfl⟩
  · cases hissue

/-- The scanner of markup reports elements and attributes. -/
theorem use_of_mem_markupIssues (h : i ∈ markupIssues index path source tree) :
    Reports rules index path source tree .markup i := by
  obtain ⟨tag, htag, hissue⟩ := List.mem_flatMap.mp h
  rw [SyntaxTree.visit_singleton] at htag
  unfold tagIssues at hissue
  split at hissue
  · rename_i hkind
    have hopening := contains_openingTags_iff.mp hkind
    obtain ⟨f, hf, rfl⟩ := List.mem_map.mp hissue
    refine ⟨f, _, _, ?_, rfl⟩
    rcases List.mem_append.mp hf with helement | hattribute
    · obtain ⟨name, hname, hfound⟩ := Option.bind_eq_some_iff.mp (Option.mem_toList.mp helement)
      exact .tagName htag hopening hname hfound
    · obtain ⟨child, hmem, hnamed⟩ := List.mem_filterMap.mp hattribute
      obtain ⟨hbelow, hkind⟩ := List.mem_filter.mp hmem
      obtain ⟨name, hname, hfound⟩ := Option.bind_eq_some_iff.mp hnamed
      exact .attributeName htag hopening hbelow (beq_iff_eq.mp hkind) hname hfound
  · cases hissue

/-- A look-up among some statuses finds what has one of them. -/
theorem lookupAmong_eq_some_iff {statuses : List Status} {identifier : String}
    {f : IndexedFeature} :
    lookupAmong index statuses identifier = some f ↔
      index.lookup identifier = some f ∧ f.status ∈ statuses := by
  rw [lookupAmong, Option.filter_eq_some_iff, List.contains_iff_mem]

/-- The uses in a declaration are those of its property and of its key words. -/
theorem use_of_mem_candidates (hmem : declaration ∈ tree.preorder)
    (hkind : declaration.kind = "declaration")
    (h : i ∈ candidates rules index path source declaration) :
    Reports rules index path source tree .style i := by
  unfold candidates at h
  split at h
  · cases h
  · rename_i property hproperty
    rcases List.mem_append.mp h with hown | hvalue
    · obtain ⟨f, hf, rfl⟩ := Option.map_eq_some_iff.mp (Option.mem_toList.mp hown)
      obtain ⟨hfound, hasked⟩ := lookupAmong_eq_some_iff.mp hf
      exact ⟨f, _, _, .property hmem hkind hproperty hfound hasked, rfl⟩
    · split at hvalue
      · rename_i hscanned
        obtain ⟨keyword, hkeyword, hissue⟩ := List.mem_filterMap.mp hvalue
        obtain ⟨hinside, hplain⟩ := SyntaxTree.mem_descendants.mp hkeyword
        unfold valueCandidate at hissue
        dsimp only at hissue
        split at hissue
        · cases hissue
        · rename_i hnonempty
          obtain ⟨f, hf, rfl⟩ := Option.map_eq_some_iff.mp hissue
          obtain ⟨hfound, hasked⟩ := lookupAmong_eq_some_iff.mp hf
          refine ⟨f, _, _, ?_, rfl⟩
          exact .keyword hmem hkind hproperty hscanned hinside hplain rfl (by simpa using hnonempty)
            hfound hasked
      · cases hvalue

/-- Issues that are not dropped were there before. -/
theorem mem_of_mem_dropRepeated {issues : List Issue} {seen : Std.HashSet (String × UInt32)}
    (h : i ∈ dropRepeated issues seen) : i ∈ issues := by
  induction issues generalizing seen with
  | nil => exact h
  | cons first rest ih =>
      rw [dropRepeated] at h
      split at h
      · exact List.mem_cons_of_mem first (ih h)
      · rcases List.mem_cons.mp h with rfl | hrest
        · exact List.mem_cons_self
        · exact List.mem_cons_of_mem first (ih hrest)

/-- The scanner of style sheets reports properties and key words. -/
theorem use_of_mem_styleIssues (h : i ∈ styleIssues rules index path source tree) :
    Reports rules index path source tree .style i := by
  obtain ⟨declaration, hdeclaration, hissue⟩ := List.mem_flatMap.mp (mem_of_mem_dropRepeated h)
  obtain ⟨hmem, hkind⟩ := SyntaxTree.mem_descendants.mp hdeclaration
  exact use_of_mem_candidates hmem hkind hissue

end Scan

namespace Scanner

variable (s : Scanner)

/-- **The issues of a file.**  Whatever the scanners are, each issue is made from a use in the tree
of the file in its language. -/
theorem exists_use_of_mem_scanFile {file : SourceFile} {i : Issue} (h : i ∈ s.scanFile file) :
    ∃ language, ScanLanguage.ofPath file.path = some language ∧
      Scan.Reports s.rules s.index file.path file.content
        (s.parsers.tree language file.path file.content) language i := by
  unfold scanFile at h
  split at h
  · rename_i language hlanguage
    refine ⟨language, hlanguage, ?_⟩
    split at h
    · cases language with
      | script => exact Scan.use_of_mem_scriptIssues h
      | style => exact Scan.use_of_mem_styleIssues h
      | markup => exact Scan.use_of_mem_markupIssues h
    · cases h
  · cases h

/-- Each issue of a file is marked with its path. -/
theorem file_of_mem_scanFile {file : SourceFile} {i : Issue} (h : i ∈ s.scanFile file) :
    i.file = file.path := by
  obtain ⟨language, -, f, shown, point, -, rfl⟩ := s.exists_use_of_mem_scanFile h
  rfl

end Scanner

end WebBaseline
