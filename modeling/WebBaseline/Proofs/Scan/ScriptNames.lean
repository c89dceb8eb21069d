import WebBaseline.Proofs.SyntaxTree.Preorder
import WebBaseline.Proofs.Scan.RecordUses
import WebBaseline.Proofs.Scan.Uses
import WebBaseline.Proofs.Text.Slice

/-!
# What is reported of a script

A script names features: a node whose kind is one of the five of names, and whose
text is in the table of names, stands for the first record for scripts whose identifier
contains the fragment of the name.  Each such node gives one issue, as often as
a name occurs and wherever the parser has put it.

* `Names` — that a node names a record; `namedRecord?_eq_some_iff` — the record is found;
* `namedIssue?`, `scriptIssue?_build` — the issue of a node is that for the record that it names;
* `scanFile_script` — the issues of a file are those of its nodes;
* `script_issues_one_per_name` — the issues of every script;
* `script_issues_one_per_name_damaged` — a name twice in a part that could not be parsed.
-/

namespace WebBaseline.Scan

/-- Whether a node names a record of a catalog. -/
structure Names (catalog : List FeatureRecord) (table : NameTable) (source : String)
    (node : SyntaxTree) (r : FeatureRecord) : Prop where
  kind : IsNameKind node.kind
  /-- The text of the node is a name, and no record before has the name's fragment. -/
  first : ∃ name fragment, node.HasText source name ∧ (name, fragment) ∈ table.entries ∧
    ∃ before after, catalog = before ++ r :: after ∧ FeatureIndex.NamedBy fragment r ∧
      ∀ q ∈ before, ¬ FeatureIndex.NamedBy fragment q

section Catalog

variable (catalog : List FeatureRecord) (table : NameTable) (source : String)

/-- The record that a node names. -/
def namedRecord? (node : SyntaxTree) : Option FeatureRecord :=
  if IsNameKind node.kind then
    (table.fragment? (node.text source)).bind fun fragment =>
      catalog.find? (FeatureIndex.matchesFragment fragment)
  else none

variable {catalog table source}

theorem find?_matchesFragment_eq_some_iff {fragment : String} {r : FeatureRecord} :
    catalog.find? (FeatureIndex.matchesFragment fragment) = some r ↔
      ∃ before after, catalog = before ++ r :: after ∧ FeatureIndex.NamedBy fragment r ∧
        ∀ q ∈ before, ¬ FeatureIndex.NamedBy fragment q := by
  simp only [List.find?_eq_some_iff_append, Bool.not_eq_true', Bool.eq_false_iff, ne_eq,
    FeatureIndex.matchesFragment_iff]
  constructor
  · rintro ⟨hr, before, after, hsplit, hbefore⟩
    exact ⟨before, after, hsplit, hr, hbefore⟩
  · rintro ⟨before, after, hsplit, hr, hbefore⟩
    exact ⟨hr, before, after, hsplit, hbefore⟩

/-- **The record of a node** is the one that it names. -/
theorem namedRecord?_eq_some_iff {node : SyntaxTree} {r : FeatureRecord} :
    namedRecord? catalog table source node = some r ↔ Names catalog table source node r := by
  unfold namedRecord?
  by_cases hkind : IsNameKind node.kind
  · rw [if_pos hkind, Option.bind_eq_some_iff]
    constructor
    · rintro ⟨fragment, hfragment, hfind⟩
      refine ⟨hkind, node.text source, fragment, SyntaxTree.text_eq_iff.mp rfl, ?_, ?_⟩
      · exact (NameTable.fragment?_eq_some_iff table).mp hfragment
      · exact find?_matchesFragment_eq_some_iff.mp hfind
    · rintro ⟨-, name, fragment, htext, hentry, hfirst⟩
      obtain rfl := SyntaxTree.text_eq_iff.mpr htext
      exact ⟨fragment, (NameTable.fragment?_eq_some_iff table).mpr hentry,
        find?_matchesFragment_eq_some_iff.mpr hfirst⟩
  · rw [if_neg hkind]
    exact ⟨nofun, fun h => absurd h.kind hkind⟩

theorem Names.unique {node : SyntaxTree} {r q : FeatureRecord}
    (hr : Names catalog table source node r) (hq : Names catalog table source node q) : r = q :=
  Option.some.inj ((namedRecord?_eq_some_iff.mpr hr).symm.trans (namedRecord?_eq_some_iff.mpr hq))

instance (node : SyntaxTree) : Decidable (∃ r, Names catalog table source node r) :=
  decidable_of_iff ((namedRecord? catalog table source node).isSome = true) (by
    simp only [Option.isSome_iff_exists, namedRecord?_eq_some_iff])

variable (catalog table source) (policy : PriorityPolicy) (path : String)

/-- The issue for the record that a node names. -/
def namedIssue? (node : SyntaxTree) : Option Issue :=
  (namedRecord? catalog table source node).map fun r => r.usedAt policy path node.point

variable {catalog table source policy path} in
theorem namedIssue?_eq_some_iff {node : SyntaxTree} {i : Issue} :
    namedIssue? catalog table source policy path node = some i ↔
      ∃ r, Names catalog table source node r ∧ i = r.usedAt policy path node.point := by
  simp only [namedIssue?, Option.map_eq_some_iff, namedRecord?_eq_some_iff]
  exact exists_congr fun r => and_congr_right fun _ => eq_comm

theorem isSome_namedIssue? (node : SyntaxTree) :
    (namedIssue? catalog table source policy path node).isSome =
      decide (∃ r, Names catalog table source node r) := by
  rw [namedIssue?, Option.isSome_map, Bool.eq_iff_iff, decide_eq_true_eq,
    Option.isSome_iff_exists]
  exact exists_congr fun r => namedRecord?_eq_some_iff

/-- **The issue of a node** is that for the record that it names. -/
theorem scriptIssue?_build (node : SyntaxTree) :
    scriptIssue? (.build catalog table policy) path source node =
      namedIssue? catalog table source policy path node := by
  unfold scriptIssue? namedIssue? namedRecord?
  by_cases hkind : IsNameKind node.kind
  · rw [if_pos (contains_nameKinds_iff.mpr hkind), if_pos hkind, FeatureIndex.scriptFeature_build,
      FeatureIndex.searchScript, Option.map_bind, Option.map_bind]
    congr 1
    funext fragment
    rw [Function.comp_apply, Function.comp_apply, FeatureIndex.searchFragment, Option.map_map,
      FeatureIndex.issueAt_comp_ofRecord]
    rfl
  · rw [if_neg (mt contains_nameKinds_iff.mp hkind), if_neg hkind, Option.map_none]

theorem scriptIssues_build (tree : SyntaxTree) :
    scriptIssues (.build catalog table policy) path source tree =
      tree.preorder.filterMap (namedIssue? catalog table source policy path) := by
  rw [scriptIssues, SyntaxTree.visit_singleton]
  exact List.filterMap_congr fun node _ => scriptIssue?_build catalog table source policy path node

end Catalog

/-- The issues of a file with a script are those of the nodes of its tree. -/
theorem scanFile_script (parsers : Parsers) (catalog : List FeatureRecord)
    (settings : ScanSettings) {path : String} (source : String)
    (hpath : ScanLanguage.ofPath path = some .script) :
    (Scanner.ofCatalog parsers catalog settings).scanFile ⟨path, source⟩ =
      (parsers.script (ScanLanguage.isPlainTyped path) source).preorder.filterMap
        (namedIssue? catalog (.withExtras settings.extraNames.entries) source settings.priority
          path) := by
  unfold Scanner.scanFile
  rw [hpath]
  exact scriptIssues_build catalog _ source settings.priority path _

/-- What a list is mapped to stands for the items that are mapped to something, in their order. -/
theorem forall₂_filterMap {α β : Type} (f : α → Option β) (items : List α) :
    List.Forall₂ (fun a b => f a = some b) (items.filter fun a => (f a).isSome)
      (items.filterMap f) := by
  induction items with
  | nil => exact List.Forall₂.nil
  | cons a rest ih =>
      cases ha : f a with
      | none => simpa [ha] using ih
      | some b => simpa [ha] using ih

/-- **The issues of a script.**  For all catalogs, tables of names, policies, texts and syntax
trees:

* there is one issue for each node that names a record, in the order of the nodes: the one for that
  record at the point of the node; the record is the first one in the catalog that has the fragment
  of the name;
* the issues of a tree are that of its root, if it names a record, and then those of its children,
  whatever the kind of the root is;
* the location of an issue is that of its node, counted from one. -/
theorem script_issues_one_per_name (catalog : List FeatureRecord) (table : NameTable)
    (policy : PriorityPolicy) (path source : String) :
    let issues := scriptIssues (.build catalog table policy) path source
    (∀ tree, List.Forall₂
      (fun node i => ∃ r, Names catalog table source node r ∧ i = r.usedAt policy path node.point)
      (tree.preorder.filter fun node => ∃ r, Names catalog table source node r) (issues tree)) ∧
    (∀ node r q, Names catalog table source node r → Names catalog table source node q → r = q) ∧
    (∀ tree, ∃ own, issues tree = own ++ tree.children.flatMap issues ∧
      ((∃ r, Names catalog table source tree r ∧ own = [r.usedAt policy path tree.point]) ∨
        own = [] ∧ ∀ r, ¬ Names catalog table source tree r)) ∧
    ∀ (r : FeatureRecord) (point : Point), point.Fits →
      (r.usedAt policy path point).line.toNat = point.row + 1 ∧
      (r.usedAt policy path point).column.toNat = point.column + 1 := by
  intro issues
  have hissues : ∀ tree, issues tree =
      tree.preorder.filterMap (namedIssue? catalog table source policy path) :=
    scriptIssues_build catalog table source policy path
  refine ⟨fun tree => ?_, fun node r q => Names.unique, fun tree => ?_,
    fun r point hpoint => Location.toNat_ofPoint hpoint⟩
  · have hone := forall₂_filterMap (namedIssue? catalog table source policy path) tree.preorder
    rw [← hissues] at hone
    simp only [isSome_namedIssue?] at hone
    exact hone.imp fun node i hi => namedIssue?_eq_some_iff.mp hi
  · refine ⟨(namedIssue? catalog table source policy path tree).toList, ?_, ?_⟩
    · have hbelow : (tree.children.flatMap fun child => child.preorder.filterMap
          (namedIssue? catalog table source policy path)) = tree.children.flatMap issues :=
        List.flatMap_congr fun child _ => (hissues child).symm
      rw [hissues, SyntaxTree.preorder_eq, List.filterMap_cons, List.filterMap_flatMap, hbelow]
      cases namedIssue? catalog table source policy path tree <;> rfl
    · cases hown : namedIssue? catalog table source policy path tree with
      | some i =>
          obtain ⟨r, hnames, rfl⟩ := namedIssue?_eq_some_iff.mp hown
          exact Or.inl ⟨r, hnames, rfl⟩
      | none =>
          refine Or.inr ⟨rfl, fun r hnames => ?_⟩
          rw [namedIssue?_eq_some_iff.mpr ⟨r, hnames, rfl⟩] at hown
          cases hown

/-- In a damaged part a name is reported twice and a string never.  The first record with the
fragment counts, although another one is the fragment. -/
theorem script_issues_one_per_name_damaged :
    let prefetch : FeatureRecord := .ofParts "api-prefetch" "Prefetch" (some "limited")
    let catalog : List FeatureRecord :=
      [.ofParts "css-properties-fetch" "" none, prefetch,
        .ofParts "api-fetch" "Fetch" (some "wide")]
    let source := "fetch(\x27fetch\x27\nfetch"
    let first : SyntaxTree := .node "identifier" 0 5 ⟨0, 0⟩ []
    let text : SyntaxTree := .node "string" 6 13 ⟨0, 6⟩ [.node "string_fragment" 7 12 ⟨0, 7⟩ []]
    let last : SyntaxTree := .node "property_identifier" 14 19 ⟨1, 0⟩ []
    let tree : SyntaxTree := .node "program" 0 19 ⟨0, 0⟩
      [.node "ERROR" 0 19 ⟨0, 0⟩ [first, text, last]]
    Names catalog .builtIn source first prefetch ∧ Names catalog .builtIn source last prefetch ∧
      (∀ q, Names catalog .builtIn source last q → q = prefetch) ∧ last.point.Fits ∧
      (prefetch.usedAt {} "a.js" last.point).line.toNat = 2 ∧
      scriptIssues (.build catalog .builtIn {}) "a.js" source tree =
        [⟨"a.js", "api-prefetch", "Prefetch", .limited, .high, 1, 1⟩,
          ⟨"a.js", "api-prefetch", "Prefetch", .limited, .high, 2, 1⟩] := by
  intro prefetch catalog source first text last tree
  have hnames : ∀ node : SyntaxTree, IsNameKind node.kind → node.text source = "fetch" →
      Names catalog .builtIn source node prefetch := by
    intro node hkind htext
    refine ⟨hkind, "fetch", "fetch", SyntaxTree.text_eq_iff.mp htext, by decide +kernel,
      [.ofParts "css-properties-fetch" "" none], [.ofParts "api-fetch" "Fetch" (some "wide")],
      rfl, ?_, ?_⟩ <;> unfold FeatureIndex.NamedBy <;> decide +kernel
  have hfirst := hnames first (by decide) (by decide +kernel)
  have hlast := hnames last (by decide) (by decide +kernel)
  have hfits : last.point.Fits := by decide
  obtain ⟨-, hunique, -, hlocation⟩ :=
    script_issues_one_per_name catalog .builtIn {} "a.js" source
  refine ⟨hfirst, hlast, fun q hq => hunique last q prefetch hq hlast, hfits,
    (hlocation prefetch last.point hfits).1, ?_⟩
  rw [scriptIssues_build]
  decide +kernel

end WebBaseline.Scan
