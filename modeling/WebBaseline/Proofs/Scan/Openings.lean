import Mathlib.Data.List.Count
import Mathlib.Data.List.Find
import WebBaseline.Proofs.SyntaxTree.Preorder
import WebBaseline.Proofs.Scan.RecordUses
import WebBaseline.Proofs.Scan.Uses

/-!
# What is reported of a markup document

A document is a sequence of openings of elements.  An opening says where its
tag starts, the word for the element, which a damaged tag may lack, and the
words for its attributes.  It asks a catalog for the element and then for each
attribute, and what the catalog has is an issue at the start of the tag.

Nothing else of a document matters.  Its outline, from which texts, end tags,
values of attributes and attributes outside of openings are left out, has the
same openings.

* `Opening`, `opening?` — the opening of a tag;
* `Opening.issues`, `tagIssues_build` — the issues of a tag are those of its opening;
* `count_issues` — an opening has an issue as often as it asks for the record;
* `SyntaxTree.outline`, `openings_outline` — what is left out contributes nothing;
* `markup_issues_by_opening` — the issues of every document;
* `markup_issues_by_opening_repeated` — a tag that has an attribute twice.
-/

namespace WebBaseline

/-- What a tag says that opens an element. -/
structure Opening where
  /-- Where the tag starts. -/
  point : Point
  element : Option String
  attributes : List String
deriving DecidableEq

/-- What an opening asks a catalog for. -/
def Opening.identifiers (o : Opening) : List String :=
  (o.element.map ("html-element-" ++ ·)).toList ++ o.attributes.map ("html-attribute-" ++ ·)

/-- The issues of an opening: the first record of each identifier that it asks for. -/
def Opening.issues (catalog : List FeatureRecord) (policy : PriorityPolicy) (path : String)
    (o : Opening) : List Issue :=
  o.identifiers.filterMap fun id =>
    (catalog.find? (·.identifier == id)).map fun r => r.usedAt policy path o.point

namespace Scan

/-- The text in lower case of the first child of a kind. -/
def wordBelow? (source kind : String) (node : SyntaxTree) : Option String :=
  (node.child? kind).map fun child => Text.lower (child.text source)

/-- The opening of a node, if it is a tag that opens an element. -/
def opening? (source : String) (node : SyntaxTree) : Option Opening :=
  if IsOpeningTag node.kind then
    some
      { point := node.point
        element := wordBelow? source "tag_name" node
        attributes := (node.children.filter (·.kind == "attribute")).filterMap
          (wordBelow? source "attribute_name") }
  else none

/-- The openings of a document, in the order of its nodes. -/
def openings (source : String) (tree : SyntaxTree) : List Opening :=
  tree.preorder.filterMap (opening? source)

end Scan

/-! ### Issues of openings -/

namespace Opening

variable {catalog : List FeatureRecord} {policy : PriorityPolicy} {path : String}

/-- The element comes first, and the attributes do not depend on it. -/
theorem issues_eq_append (o : Opening) :
    o.issues catalog policy path =
      ({ o with attributes := [] } : Opening).issues catalog policy path ++
        ({ o with element := none } : Opening).issues catalog policy path := by
  simp [issues, identifiers, List.filterMap_append]

theorem length_issues_element_le (point : Point) (element : Option String) :
    ((Opening.mk point element []).issues catalog policy path).length ≤ 1 := by
  have hone : (Opening.mk point element []).identifiers.length ≤ 1 := by
    cases element <;> simp [identifiers]
  exact Nat.le_trans (List.length_filterMap_le _ _) hone

/-- An issue of an opening is for a record that the opening asks for, at the start of the tag. -/
theorem mem_issues_iff {o : Opening} {i : Issue} :
    i ∈ o.issues catalog policy path ↔ ∃ id ∈ o.identifiers, ∃ r,
      catalog.find? (·.identifier == id) = some r ∧ i = r.usedAt policy path o.point := by
  simp only [issues, List.mem_filterMap, Option.map_eq_some_iff]
  exact exists_congr fun id => and_congr_right fun _ => exists_congr fun r =>
    and_congr_right fun _ => eq_comm

/-- **Repeated questions.**  An opening has the issue for a record as often as it asks for it. -/
theorem count_issues (o : Opening) {id : String} {r : FeatureRecord}
    (hr : catalog.find? (·.identifier == id) = some r) :
    (o.issues catalog policy path).count (r.usedAt policy path o.point) =
      o.identifiers.count id := by
  have hid : r.identifier = id := by simpa using List.find?_some hr
  unfold issues
  induction o.identifiers with
  | nil => rfl
  | cons other rest ih =>
      rw [List.filterMap_cons, List.count_cons]
      cases hq : catalog.find? (·.identifier == other) with
      | none =>
          have hne : other ≠ id := by
            rintro rfl
            rw [hr] at hq
            cases hq
          simpa [hne] using ih
      | some q =>
          have hother : q.identifier = other := by simpa using List.find?_some hq
          by_cases hsame : other = id
          · subst hsame
            obtain rfl : q = r := Option.some.inj (hq.symm.trans hr)
            simpa using ih
          · -- Issues for records with other identifiers are other issues.
            have hne : q.usedAt policy path o.point ≠ r.usedAt policy path o.point := by
              intro heq
              exact hsame (hother.symm.trans ((congrArg Issue.featureId heq).trans hid))
            simpa [hne, hsame] using ih

theorem append_inj_left {start a b : String} : start ++ a = start ++ b ↔ a = b := by
  rw [← String.toList_inj, String.toList_append, String.toList_append, List.append_cancel_left_eq,
    String.toList_inj]

/-- Identifiers of elements are none of attributes. -/
theorem element_ne_attribute (a b : String) : "html-element-" ++ a ≠ "html-attribute-" ++ b := by
  intro h
  have hlists := congrArg String.toList h
  simp [String.toList_append] at hlists

theorem count_attribute (o : Opening) (name : String) :
    o.identifiers.count ("html-attribute-" ++ name) = o.attributes.count name := by
  have helement : (o.element.map ("html-element-" ++ ·)).toList.count ("html-attribute-" ++ name) =
      0 := by
    cases o.element <;> simp [element_ne_attribute]
  have hinjective : Function.Injective fun a : String => "html-attribute-" ++ a :=
    fun a b => append_inj_left.mp
  rw [identifiers, List.count_append, helement, Nat.zero_add]
  exact List.count_map_of_injective _ _ hinjective name

theorem count_element (o : Opening) (name : String) :
    o.identifiers.count ("html-element-" ++ name) = if o.element = some name then 1 else 0 := by
  have hattributes : (o.attributes.map ("html-attribute-" ++ ·)).count ("html-element-" ++ name) =
      0 := by
    refine List.count_eq_zero.mpr fun hmem => ?_
    obtain ⟨other, -, heq⟩ := List.mem_map.mp hmem
    exact element_ne_attribute name other heq.symm
  rw [identifiers, List.count_append, hattributes, Nat.add_zero]
  cases o.element with
  | none => rfl
  | some other =>
      by_cases hsame : other = name
      · simp [hsame]
      · have hne : "html-element-" ++ other ≠ "html-element-" ++ name :=
          mt append_inj_left.mp hsame
        simp [hne, hsame]

end Opening

/-! ### Issues of tags -/

namespace Scan

section Catalog

variable (catalog : List FeatureRecord) (table : NameTable) (policy : PriorityPolicy)
  (path source : String)

/-- A name is looked up by finding the first record with the identifier that ends in it. -/
theorem namedFeature?_build (kind start : String) (node : SyntaxTree) :
    namedFeature? (.build catalog table policy) source kind start node =
      (wordBelow? source kind node).bind fun word =>
        (catalog.find? (·.identifier == start ++ word)).map .ofRecord := by
  unfold namedFeature? wordBelow?
  simp only [FeatureIndex.lookup_build, FeatureIndex.search]
  cases node.child? kind <;> rfl

/-- **The issues of a tag** are those of its opening. -/
theorem tagIssues_build (node : SyntaxTree) :
    tagIssues (.build catalog table policy) path source node =
      (opening? source node).elim [] (Opening.issues catalog policy path) := by
  unfold tagIssues opening?
  by_cases hkind : IsOpeningTag node.kind
  · rw [if_pos (contains_openingTags_iff.mpr hkind), if_pos hkind, Option.elim_some, Opening.issues,
      Opening.identifiers, List.filterMap_append, tagFeatures, List.map_append, List.map_filterMap,
      List.filterMap_map, List.filterMap_filterMap]
    congr 1
    · rw [namedFeature?_build]
      cases hname : wordBelow? source "tag_name" node with
      | none => rfl
      | some word =>
          cases hfind : catalog.find? (·.identifier == "html-element-" ++ word) with
          | none => simp [hfind]
          | some r => simp [hfind, FeatureIndex.issueAt_build]
    · refine List.filterMap_congr fun child _ => ?_
      rw [namedFeature?_build, Option.map_bind]
      congr 1
      funext word
      rw [Function.comp_apply, Function.comp_apply, Option.map_map,
        FeatureIndex.issueAt_comp_ofRecord]
  · rw [if_neg (mt contains_openingTags_iff.mp hkind), if_neg hkind, Option.elim_none]

theorem markupIssues_build (tree : SyntaxTree) :
    markupIssues (.build catalog table policy) path source tree =
      (openings source tree).flatMap (Opening.issues catalog policy path) := by
  rw [markupIssues, SyntaxTree.visit_singleton, openings, List.filterMap_eq_flatMap_toList,
    List.flatMap_assoc]
  refine List.flatMap_congr fun node _ => ?_
  rw [tagIssues_build]
  cases opening? source node with
  | none => rfl
  | some o => exact (List.append_nil _).symm

end Catalog

/-- The openings of a tree, by its children. -/
theorem openings_eq (source : String) (tree : SyntaxTree) :
    openings source tree =
      (opening? source tree).toList ++ tree.children.flatMap (openings source) := by
  rw [openings, SyntaxTree.preorder_eq, List.filterMap_cons, List.filterMap_flatMap]
  cases opening? source tree <;> rfl

end Scan

/-! ### Outlines -/

namespace SyntaxTree

/-- Whether there is a tag in a tree that opens an element. -/
def hasOpening (tree : SyntaxTree) : Bool :=
  tree.preorder.any fun node => Scan.IsOpeningTag node.kind

/-- Whether a node counts below one of a kind: an opening is in it, or it is a name or an attribute
of an opening, or the name of an attribute. -/
def counts (parent : String) (node : SyntaxTree) : Bool :=
  node.hasOpening ||
    decide (Scan.IsOpeningTag parent) && (node.kind == "tag_name" || node.kind == "attribute") ||
    parent == "attribute" && node.kind == "attribute_name"

mutual

/-- A tree without the nodes that do not count. -/
def outline : SyntaxTree → SyntaxTree
  | node k s e p cs => node k s e p (outlineAll k cs)

/-- The outlines of those children that count. -/
def outlineAll (parent : String) : List SyntaxTree → List SyntaxTree
  | [] => []
  | t :: rest =>
    if counts parent t then outline t :: outlineAll parent rest else outlineAll parent rest

end

theorem outlineAll_eq (parent : String) (trees : List SyntaxTree) :
    outlineAll parent trees = (trees.filter (counts parent)).map outline := by
  induction trees with
  | nil => rfl
  | cons t rest ih =>
      rw [outlineAll, List.filter_cons, ih]
      split <;> rfl

theorem children_outline (tree : SyntaxTree) :
    tree.outline.children = (tree.children.filter (counts tree.kind)).map outline := by
  cases tree with
  | node k s e p cs => exact outlineAll_eq k cs

@[simp] theorem kind_outline (tree : SyntaxTree) : tree.outline.kind = tree.kind := by
  cases tree
  rfl

@[simp] theorem point_outline (tree : SyntaxTree) : tree.outline.point = tree.point := by
  cases tree
  rfl

@[simp] theorem text_outline (tree : SyntaxTree) (source : String) :
    tree.outline.text source = tree.text source := by
  cases tree
  rfl

/-- The first child of a kind stays if all children of the kind count. -/
theorem child?_outline {tree : SyntaxTree} {kind : String}
    (h : ∀ child ∈ tree.children, child.kind = kind → counts tree.kind child = true) :
    tree.outline.child? kind = (tree.child? kind).map outline := by
  rw [child?, child?, children_outline, List.find?_map, List.find?_filter]
  congr 1
  have hsame : ∀ child ∈ tree.children,
      (decide (counts tree.kind child = true ∧
        ((fun t => t.kind == kind) ∘ outline) child = true)) = (child.kind == kind) := by
    intro child hchild
    rw [Function.comp_apply, kind_outline, Bool.eq_iff_iff, decide_eq_true_eq, beq_iff_eq]
    exact ⟨And.right, fun hkind => ⟨h child hchild hkind, hkind⟩⟩
  exact List.find?_congr hsame

end SyntaxTree

namespace Scan

open SyntaxTree

variable (source : String)

theorem wordBelow?_outline {tree : SyntaxTree} {kind : String}
    (h : ∀ child ∈ tree.children, child.kind = kind → counts tree.kind child = true) :
    wordBelow? source kind tree.outline = wordBelow? source kind tree := by
  rw [wordBelow?, child?_outline h, Option.map_map, wordBelow?]
  simp only [Function.comp_def, text_outline]

/-- An opening is the same in the outline. -/
theorem opening?_outline (tree : SyntaxTree) :
    opening? source tree.outline = opening? source tree := by
  unfold opening?
  rw [kind_outline, point_outline]
  by_cases hkind : IsOpeningTag tree.kind
  · have hopens : decide (IsOpeningTag tree.kind) = true := decide_eq_true hkind
    have hcounts : ∀ child : SyntaxTree, child.kind = "tag_name" ∨ child.kind = "attribute" →
        counts tree.kind child = true := by
      intro child hchild
      have hname : (child.kind == "tag_name" || child.kind == "attribute") = true := by
        simpa using hchild
      rw [counts, hopens, hname, Bool.true_and, Bool.or_true, Bool.true_or]
    have hattributes : tree.outline.children.filter (·.kind == "attribute") =
        (tree.children.filter (·.kind == "attribute")).map outline := by
      rw [children_outline, List.filter_map, List.filter_filter]
      congr 1
      refine List.filter_congr fun child _ => ?_
      rw [Function.comp_apply, kind_outline]
      by_cases hattribute : child.kind = "attribute"
      · rw [hcounts child (Or.inr hattribute), Bool.and_true]
      · rw [beq_eq_false_iff_ne.mpr hattribute, Bool.false_and]
    rw [if_pos hkind, if_pos hkind, wordBelow?_outline source fun child _ hname =>
      hcounts child (Or.inl hname), hattributes, List.filterMap_map]
    congr 2
    refine List.filterMap_congr fun parent hmem => ?_
    have hparent : parent.kind = "attribute" := by
      simpa using (List.mem_filter.mp hmem).2
    refine wordBelow?_outline source fun child _ hname => ?_
    simp [counts, hparent, hname]
  · simp only [if_neg hkind]

theorem openings_of_not_hasOpening {tree : SyntaxTree} (h : tree.hasOpening = false) :
    openings source tree = [] := by
  refine List.filterMap_eq_nil_iff.mpr fun node hnode => if_neg fun hkind => ?_
  have hany : tree.hasOpening = true :=
    List.any_eq_true.mpr ⟨node, hnode, decide_eq_true hkind⟩
  rw [h] at hany
  cases hany

theorem flatMap_openings_filter_counts (parent : String) (trees : List SyntaxTree) :
    (trees.filter (counts parent)).flatMap (openings source) =
      trees.flatMap (openings source) := by
  induction trees with
  | nil => rfl
  | cons tree rest ih =>
      rw [List.filter_cons, List.flatMap_cons]
      cases hcounts : counts parent tree with
      | true => rw [if_pos rfl, List.flatMap_cons, ih]
      | false =>
          have hnone : tree.hasOpening = false := by
            simp only [counts, Bool.or_eq_false_iff] at hcounts
            exact hcounts.1.1
          rw [if_neg Bool.false_ne_true, ih, openings_of_not_hasOpening source hnone,
            List.nil_append]

/-- **Outlines.**  What is left out of a tree holds no openings. -/
theorem openings_outline (tree : SyntaxTree) :
    openings source tree.outline = openings source tree := by
  induction tree using induction_on_children with
  | step tree ih =>
      rw [openings_eq, openings_eq source tree, opening?_outline, children_outline,
        List.flatMap_map, ← flatMap_openings_filter_counts source tree.kind tree.children]
      congr 1
      exact List.flatMap_congr fun child hchild => ih child (List.mem_filter.mp hchild).1

/-- **The issues of a markup document.**  For all catalogs, tables of names, policies, texts and
syntax trees, in which names may be missing and tags may be inside of damaged parts:

* the issues are those of the openings, one opening after the other in the order of the nodes; the
  openings of a tree are that of its root, if it is a tag that opens an element, and then those of
  its children, whatever the kind of the root is;
* the issues of an opening are at most one for its element and then those for its attributes, which
  are the same for a tag without a name; all of them are at the start of the tag and are for the
  first record in the catalog with one of the identifiers that the opening asks for;
* the issue for an attribute is there as often as the attribute is in the tag, and the one for an
  element if it is that of the tag;
* the outline has the same issues: texts, end tags, values of attributes, and names and attributes
  outside of openings contribute nothing. -/
theorem markup_issues_by_opening (catalog : List FeatureRecord) (table : NameTable)
    (policy : PriorityPolicy) (path source : String) :
    let issues := markupIssues (.build catalog table policy) path source
    let issuesOf := Opening.issues catalog policy path
    (∀ tree, issues tree = (openings source tree).flatMap issuesOf) ∧
    (∀ tree, openings source tree =
      (opening? source tree).toList ++ tree.children.flatMap (openings source)) ∧
    (∀ o : Opening, issuesOf o =
        issuesOf { o with attributes := [] } ++ issuesOf { o with element := none } ∧
      (issuesOf { o with attributes := [] }).length ≤ 1) ∧
    (∀ (o : Opening) (i : Issue), i ∈ issuesOf o ↔ ∃ id ∈ o.identifiers, ∃ r,
      catalog.find? (·.identifier == id) = some r ∧ i = r.usedAt policy path o.point) ∧
    (∀ (o : Opening) name r, catalog.find? (·.identifier == "html-attribute-" ++ name) = some r →
      (issuesOf o).count (r.usedAt policy path o.point) = o.attributes.count name) ∧
    (∀ (o : Opening) name r, catalog.find? (·.identifier == "html-element-" ++ name) = some r →
      (issuesOf o).count (r.usedAt policy path o.point) =
        if o.element = some name then 1 else 0) ∧
    ∀ tree : SyntaxTree, issues tree.outline = issues tree := by
  intro issues issuesOf
  have hissues : ∀ tree, issues tree = (openings source tree).flatMap issuesOf :=
    markupIssues_build catalog table policy path source
  refine ⟨hissues, openings_eq source, fun o => ⟨o.issues_eq_append, ?_⟩, fun o i =>
    Opening.mem_issues_iff, fun o name r hr => ?_, fun o name r hr => ?_, fun tree => ?_⟩
  · exact Opening.length_issues_element_le o.point o.element
  · rw [← o.count_attribute]
    exact o.count_issues hr
  · rw [← o.count_element]
    exact o.count_issues hr
  · rw [hissues, hissues, openings_outline]

/-- A tag with an attribute in two spellings; the outline leaves out a text and an end tag. -/
theorem markup_issues_by_opening_repeated :
    let division : FeatureRecord := .ofParts "html-element-div" "div" (some "wide")
    let popover : FeatureRecord := .ofParts "html-attribute-popover" "popover" (some "newly")
    let catalog := [popover, division]
    let source := "<DIV popover POPOVER>x</div>"
    let start : SyntaxTree := .node "start_tag" 0 21 ⟨0, 0⟩
      [.node "tag_name" 1 4 ⟨0, 1⟩ [],
        .node "attribute" 5 12 ⟨0, 5⟩ [.node "attribute_name" 5 12 ⟨0, 5⟩ []],
        .node "attribute" 13 20 ⟨0, 13⟩ [.node "attribute_name" 13 20 ⟨0, 13⟩ []]]
    let tree : SyntaxTree := .node "element" 0 28 ⟨0, 0⟩
      [start, .node "text" 21 22 ⟨0, 21⟩ [],
        .node "end_tag" 22 28 ⟨0, 22⟩ [.node "tag_name" 24 27 ⟨0, 24⟩ []]]
    let o : Opening := ⟨⟨0, 0⟩, some "div", ["popover", "popover"]⟩
    let issues := markupIssues (.build catalog .builtIn {}) "a.html" source
    catalog.find? (·.identifier == "html-attribute-popover") = some popover ∧
      catalog.find? (·.identifier == "html-element-div") = some division ∧
      openings source tree = [o] ∧ issues tree = o.issues catalog {} "a.html" ∧
      (o.issues catalog {} "a.html").count (popover.usedAt {} "a.html" o.point) = 2 ∧
      (o.issues catalog {} "a.html").count (division.usedAt {} "a.html" o.point) = 1 ∧
      tree.outline.children.length = 1 ∧ issues tree.outline = issues tree := by
  intro division popover catalog source start tree o issues
  have hpopover : catalog.find? (·.identifier == "html-attribute-popover") = some popover := rfl
  have hdivision : catalog.find? (·.identifier == "html-element-div") = some division := rfl
  have hopenings : openings source tree = [o] := by decide +kernel
  obtain ⟨hissues, -, -, -, hattribute, helement, houtline⟩ :=
    markup_issues_by_opening catalog .builtIn {} "a.html" source
  refine ⟨hpopover, hdivision, hopenings, ?_, hattribute o "popover" popover hpopover,
    helement o "div" division hdivision, by decide +kernel, houtline tree⟩
  exact (hissues tree).trans (by rw [hopenings, List.flatMap_singleton])

end Scan

end WebBaseline
