import WebBaseline.Proofs.Scan.FileOrder
import WebBaseline.Proofs.Scan.RecordUses
import WebBaseline.Proofs.Scan.StyleQueries
import WebBaseline.Proofs.SyntaxTree.Nesting

/-!
# Issues in the order of the text

The scanners of scripts and markup go from node to node, and so through the
text.  That of style sheets goes from declaration to declaration and from there
to the key words, which are in order as well as long as no declaration is inside
of another one.  Results are sorted by file only, and this keeps the order.

* `Orderly` — trees whose issues are in order;
* `pairwise_flatMap_of_isAt` — what is reported at nodes comes in their order;
* `pairwise_candidates`, `pairwise_styleIssues` — within and across declarations;
* `Scanner.issues_in_document_order` — the issues of every run.
-/

namespace WebBaseline

/-- Points that fit are in the order of their locations. -/
theorem Location.ofPoint_le_iff {p q : Point} (hp : p.Fits) (hq : q.Fits) :
    (ofPoint p).le (ofPoint q) = true ↔ p ≤ q := by
  obtain ⟨hline, hcolumn⟩ := toNat_ofPoint hp
  obtain ⟨hline', hcolumn'⟩ := toNat_ofPoint hq
  rw [le, Bool.or_eq_true, Bool.and_eq_true, decide_eq_true_iff, decide_eq_true_iff, beq_iff_eq,
    UInt32.lt_iff_toNat_lt, UInt32.le_iff_toNat_le, ← UInt32.toNat_inj, hline, hline', hcolumn,
    hcolumn', Point.le_iff]
  omega

namespace Scan

/-- Whether the issues of a tree in a language come in the order of the text: its nodes are laid
out at points that fit, and in a style sheet no declaration is inside of another one. -/
structure Orderly (language : ScanLanguage) (tree : SyntaxTree) : Prop extends tree.LaidOut where
  fits : ∀ node ∈ tree.preorder, node.point.Fits
  declarations : language = .style → tree.Unnested "declaration"

/-- Whether an issue is located at a node. -/
def IsAt (i : Issue) (node : SyntaxTree) : Prop := i.location = .ofPoint node.point

variable {rules : StyleRules} {index : FeatureIndex} {path source : String}
  {language : ScanLanguage} {tree declaration : SyntaxTree}

/-- Every use in a tree is at a node of it. -/
theorem Reports.exists_isAt {i : Issue} (h : Reports rules index path source tree language i) :
    ∃ node ∈ tree.preorder, IsAt i node := by
  obtain ⟨f, shown, point, huse, rfl⟩ := h
  cases huse with
  | name mem => exact ⟨_, mem, rfl⟩
  | tagName mem => exact ⟨_, mem, rfl⟩
  | attributeName mem => exact ⟨_, mem, rfl⟩
  | property mem => exact ⟨_, mem, rfl⟩
  | keyword mem _ _ _ inside => exact ⟨_, SyntaxTree.mem_preorder_trans mem inside, rfl⟩

namespace Orderly

/-- Issues at two nodes are in the order of the points of these. -/
theorem location_le (h : Orderly language tree) {a b : SyntaxTree} {i j : Issue}
    (ha : a ∈ tree.preorder) (hb : b ∈ tree.preorder) (hab : a.point ≤ b.point) (hi : IsAt i a)
    (hj : IsAt j b) : i.location.le j.location = true := by
  rw [hi, hj]
  exact (Location.ofPoint_le_iff (h.fits a ha) (h.fits b hb)).mpr hab

/-- **Nodes and issues.**  What is reported at some nodes, in the order of the visit, is in the
order of the text. -/
theorem pairwise_flatMap_of_isAt (h : Orderly language tree) {nodes : List SyntaxTree}
    {issuesOf : SyntaxTree → List Issue} (hnodes : nodes.Sublist tree.preorder)
    (hat : ∀ node ∈ nodes, ∀ i ∈ issuesOf node, IsAt i node) :
    (nodes.flatMap issuesOf).Pairwise fun i j => i.location.le j.location = true := by
  rw [List.pairwise_flatMap]
  constructor
  · intro node hnode
    have hmem := hnodes.mem hnode
    have hself : node.point ≤ node.point := Point.le_iff.mpr (Or.inr ⟨rfl, Nat.le_refl _⟩)
    exact List.pairwise_of_forall_mem_list fun i hi j hj =>
      h.location_le hmem hmem hself (hat node hnode i hi) (hat node hnode j hj)
  · refine (h.pairwise_point.sublist hnodes).imp_of_mem ?_
    intro a b ha hb hab i hi j hj
    exact h.location_le (hnodes.mem ha) (hnodes.mem hb) hab (hat a ha i hi) (hat b hb j hj)

theorem pairwise_scriptIssues (h : Orderly language tree) :
    (scriptIssues index path source tree).Pairwise
      fun i j => i.location.le j.location = true := by
  rw [scriptIssues, SyntaxTree.visit_singleton, List.filterMap_eq_flatMap_toList]
  refine h.pairwise_flatMap_of_isAt (List.Sublist.refl _) ?_
  intro node _ i hi
  rw [Option.mem_toList, scriptIssue?] at hi
  split at hi
  · obtain ⟨f, -, rfl⟩ := Option.map_eq_some_iff.mp hi
    rfl
  · cases hi

theorem pairwise_markupIssues (h : Orderly language tree) :
    (markupIssues index path source tree).Pairwise
      fun i j => i.location.le j.location = true := by
  rw [markupIssues, SyntaxTree.visit_singleton]
  refine h.pairwise_flatMap_of_isAt (List.Sublist.refl _) ?_
  intro node _ i hi
  rw [tagIssues] at hi
  split at hi
  · obtain ⟨f, -, rfl⟩ := List.mem_map.mp hi
    rfl
  · cases hi

/-- What is below a node of an orderly tree is orderly itself. -/
theorem of_mem_preorder (h : Orderly language tree) {node : SyntaxTree}
    (hnode : node ∈ tree.preorder) : Orderly language node where
  toLaidOut := h.toLaidOut.of_mem_preorder hnode
  fits other hother := h.fits other (SyntaxTree.mem_preorder_trans hnode hother)
  declarations hstyle outer houter :=
    h.declarations hstyle outer (SyntaxTree.mem_preorder_trans hnode houter)

/-- **Within a declaration.**  The property comes before the key words. -/
theorem pairwise_candidates (h : Orderly language declaration) :
    (candidates rules index path source declaration).Pairwise
      fun i j => i.location.le j.location = true := by
  unfold candidates
  split
  · exact List.Pairwise.nil
  · rename_i property _
    have hvalue : ∀ node, ∀ i ∈ valueCandidate rules index path source property node,
        IsAt i node := by
      intro node i hi
      unfold valueCandidate at hi
      dsimp only at hi
      split at hi
      · cases hi
      · obtain ⟨f, -, rfl⟩ := Option.map_eq_some_iff.mp hi
        rfl
    rw [List.pairwise_append]
    refine ⟨?_, ?_, ?_⟩
    · cases propertyCandidate rules index path property declaration with
      | none => exact List.Pairwise.nil
      | some i => exact List.pairwise_singleton _ i
    · split
      · rw [List.filterMap_eq_flatMap_toList, SyntaxTree.descendants, SyntaxTree.visit_singleton]
        refine h.pairwise_flatMap_of_isAt List.filter_sublist ?_
        intro node _ i hi
        exact hvalue node i (Option.mem_toList.mp hi)
      · exact List.Pairwise.nil
    · intro i hi j hj
      obtain ⟨f, -, rfl⟩ := Option.map_eq_some_iff.mp (Option.mem_toList.mp hi)
      split at hj
      · obtain ⟨keyword, hkeyword, hcandidate⟩ := List.mem_filterMap.mp hj
        have hbelow := (SyntaxTree.mem_descendants.mp hkeyword).1
        exact h.location_le (SyntaxTree.self_mem_preorder declaration) hbelow (h.point_le hbelow)
          rfl (hvalue keyword j hcandidate)
      · cases hj

/-- **Across declarations.**  What is reported of declarations that are apart comes in their order,
and this does not depend on what is dropped. -/
theorem pairwise_styleIssues (h : Orderly .style tree) :
    (styleIssues rules index path source tree).Pairwise
      fun i j => i.location.le j.location = true := by
  rw [styleIssues, dropRepeated_eq]
  refine List.Pairwise.sublist ((sublist_firstsBy _).trans List.filter_sublist) ?_
  rw [List.pairwise_flatMap]
  constructor
  · intro declaration hdeclaration
    exact (h.of_mem_preorder (SyntaxTree.mem_descendants.mp hdeclaration).1).pairwise_candidates
  · rw [SyntaxTree.descendants, SyntaxTree.visit_singleton]
    refine (h.pairwise_stop_le_start (h.declarations rfl)).imp_of_mem ?_
    intro a b ha hb hapart i hi j hj
    obtain ⟨hamem, hakind⟩ := List.mem_filter.mp ha
    obtain ⟨hbmem, hbkind⟩ := List.mem_filter.mp hb
    obtain ⟨x, hx, hatx⟩ := (use_of_mem_candidates (SyntaxTree.self_mem_preorder a)
      (beq_iff_eq.mp hakind) hi).exists_isAt
    obtain ⟨y, hy, haty⟩ := (use_of_mem_candidates (SyntaxTree.self_mem_preorder b)
      (beq_iff_eq.mp hbkind) hj).exists_isAt
    exact h.location_le (SyntaxTree.mem_preorder_trans hamem hx)
      (SyntaxTree.mem_preorder_trans hbmem hy) (h.point_le_of_apart hamem hbmem hapart hx hy)
      hatx haty

end Orderly

end Scan

namespace Scanner

variable (s : Scanner)

/-- Whether the tree of a file is orderly, if there is a scanner for its language. -/
def OrderlyFile (file : SourceFile) : Prop :=
  ∀ language ∈ s.languages, ScanLanguage.ofPath file.path = some language →
    Scan.Orderly language (s.parsers.tree language file.path file.content)

/-- The issues of a file are in the order of its text. -/
theorem pairwise_scanFile {file : SourceFile} (h : s.OrderlyFile file) :
    (s.scanFile file).Pairwise fun i j => i.location.le j.location = true := by
  unfold scanFile
  split
  · rename_i language hlanguage
    split
    · rename_i hcontains
      have htree := h language (List.contains_iff_mem.mp hcontains) hlanguage
      cases language with
      | script => exact htree.pairwise_scriptIssues
      | style => exact htree.pairwise_styleIssues
      | markup => exact htree.pairwise_markupIssues
    · exact List.Pairwise.nil
  · exact List.Pairwise.nil

/-- Files with distinct paths are sorted strictly. -/
theorem pairwise_bytes_lt_sortByPath {files : List SourceFile}
    (hpaths : (files.map SourceFile.path).Nodup) :
    (SourceFile.sortByPath files).Pairwise fun a b => Text.bytes a.path < Text.bytes b.path := by
  have hsorted := stablySorted_sortByPath files
  have hdistinct : (SourceFile.sortByPath files).Pairwise fun a b => a.path ≠ b.path :=
    List.pairwise_map.mp ((hsorted.permuted.map SourceFile.path).nodup_iff.mpr hpaths)
  refine (hsorted.ordered.and hdistinct).imp ?_
  rintro a b ⟨hle, hne⟩
  rw [← Text.lt_iff_bytes_lt]
  exact String.not_le.mp fun hge =>
    hne (String.le_antisymm ((Text.le_iff_bytes_le _ _).mpr hle) hge)

/-- **The order of issues.**  For all scanners, whatever cancels, and all files with distinct paths
whose trees are orderly, that is, in which the children of a node lie inside of it, from left to
right and without overlap, points come in the order of bytes and fit into 32 bits, and no
declaration of a style sheet is inside of another one: the issues of the result are in the order of
their files, lines and columns. -/
theorem issues_in_document_order {σ : Type} (c : Canceller σ) {files : List SourceFile}
    (hpaths : (files.map SourceFile.path).Nodup) (htrees : ∀ file ∈ files, s.OrderlyFile file) :
    (s.run c files).result.issues.Pairwise fun i j =>
      Text.bytes i.file < Text.bytes j.file ∨
        i.file = j.file ∧ i.location.le j.location = true := by
  obtain ⟨count, hstops, -⟩ := s.exists_result_run c files
  rw [s.issues_run hstops, List.pairwise_flatMap]
  have hcovered : ((files.take count).map SourceFile.path).Nodup :=
    hpaths.sublist ((List.take_sublist count files).map SourceFile.path)
  constructor
  · intro file hfile
    have hmem : file ∈ files := List.mem_of_mem_take
      ((stablySorted_sortByPath (files.take count)).permuted.mem_iff.mp hfile)
    refine (s.pairwise_scanFile (htrees file hmem)).imp_of_mem ?_
    intro i j hi hj hij
    exact Or.inr ⟨(s.file_of_mem_scanFile hi).trans (s.file_of_mem_scanFile hj).symm, hij⟩
  · refine (pairwise_bytes_lt_sortByPath hcovered).imp ?_
    intro a b hab i hi j hj
    rw [s.file_of_mem_scanFile hi, s.file_of_mem_scanFile hj]
    exact Or.inl hab

/-- A style sheet of two declarations, on two lines. -/
def twoDeclarations : String := "a\x7bfloat:left;\ndisplay:grid;\x7d"

def twoDeclarationsTree : SyntaxTree :=
  .node "stylesheet" 0 28 ⟨0, 0⟩
    [.node "declaration" 2 13 ⟨0, 2⟩
      [.node "property_name" 2 7 ⟨0, 2⟩ [], .node "plain_value" 8 12 ⟨0, 8⟩ []],
     .node "declaration" 14 27 ⟨1, 0⟩
      [.node "property_name" 14 21 ⟨1, 0⟩ [], .node "plain_value" 22 26 ⟨1, 8⟩ []]]

theorem orderly_twoDeclarationsTree (language : ScanLanguage) :
    Scan.Orderly language twoDeclarationsTree where
  toLaidOut := SyntaxTree.Nested.laidOut
    ⟨by decide +kernel, by decide +kernel, by decide +kernel⟩ twoDeclarations (by decide +kernel)
  fits := by decide +kernel
  declarations _ := by unfold SyntaxTree.Unnested; decide +kernel

/-- Two files with this style sheet, which are given in the other order of their paths. -/
theorem issues_in_document_order_two_sheets :
    let newly : Option Baseline := some { status := some "newly" }
    let catalog := ["display-grid", "float-left", "float"].map fun id =>
      { identifier := "css-properties-" ++ id, baseline := newly : FeatureRecord }
    let tree := fun _ => twoDeclarationsTree
    let s := ofCatalog ⟨fun _ => tree, tree, tree⟩ catalog {}
    let files : List SourceFile := [⟨"b.css", twoDeclarations⟩, ⟨"a.css", twoDeclarations⟩]
    let issues := (s.run .never files).result.issues
    (files.map SourceFile.path).Nodup ∧ (∀ file ∈ files, s.OrderlyFile file) ∧
    issues.map (fun i => (i.file, i.location)) =
      [("a.css", ⟨1, 3⟩), ("a.css", ⟨1, 9⟩), ("a.css", ⟨2, 9⟩),
       ("b.css", ⟨1, 3⟩), ("b.css", ⟨1, 9⟩), ("b.css", ⟨2, 9⟩)] ∧
    issues.Pairwise fun i j =>
      Text.bytes i.file < Text.bytes j.file ∨
        i.file = j.file ∧ i.location.le j.location = true := by
  intro newly catalog tree s files issues
  have hpaths : (files.map SourceFile.path).Nodup := by decide
  have htrees : ∀ file ∈ files, s.OrderlyFile file :=
    fun _ _ language _ _ => by cases language <;> exact orderly_twoDeclarationsTree _
  refine ⟨hpaths, htrees, ?_, s.issues_in_document_order .never hpaths htrees⟩
  have hsorted : SourceFile.sortByPath files =
      [⟨"a.css", twoDeclarations⟩, ⟨"b.css", twoDeclarations⟩] := by
    simp [files, SourceFile.sortByPath, List.mergeSort, List.MergeSort.Internal.splitInTwo]
  have hscan : ∀ path, ScanLanguage.ofPath path = some .style →
      s.scanFile ⟨path, twoDeclarations⟩ =
        firstsBy Issue.featureOnLine
          ((Scan.styleQueries {} twoDeclarations twoDeclarationsTree).filterMap
            (Scan.StyleQuery.candidate? catalog .standard path)) := by
    intro path hpath
    unfold scanFile
    rw [hpath]
    exact Scan.styleIssues_build catalog _ _ path twoDeclarationsTree
  have hissues : issues = _ := s.issues_run (stopsAt_never files.length)
  rw [hissues, List.take_length, hsorted, List.flatMap_cons, List.flatMap_cons, List.flatMap_nil,
    hscan "a.css" (by decide +kernel), hscan "b.css" (by decide +kernel)]
  decide +kernel

end Scanner

end WebBaseline
