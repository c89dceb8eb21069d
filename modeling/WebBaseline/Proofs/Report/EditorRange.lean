import WebBaseline.Proofs.Scan.DocumentOrder
import WebBaseline.Proofs.Scan.ScriptNames
import WebBaseline.Report.Diagnostic

/-!
# Ranges for editors

A node's point counts from zero, the issue at it from one, and the range for an editor from zero
again.  Each step is one of 32 bits: the first takes what is left of a point after truncation, the
others stop at zero and at the greatest number.

* `Word.toNat_saturatingSub`, `Word.toNat_saturatingAdd`, `Word.toNat_ofNatClamp` — the steps as
  ones of natural numbers, without a case for what wraps around;
* `Diagnostic.start_ofIssue`, `Diagnostic.stop_ofIssue` — the range of any issue;
* `Location.ofPoint_inj` — different points that fit have different locations;
* `Diagnostic.positions_survive` — from the nodes of a file to its ranges;
* `Diagnostic.positions_survive_far` — the last point that fits.
-/

namespace WebBaseline

/-! ### Numbers of 32 bits -/

namespace Word

/-- What is subtracted is subtracted as from a natural number. -/
theorem toNat_saturatingSub (a b : UInt32) : (saturatingSub a b).toNat = a.toNat - b.toNat := by
  unfold saturatingSub
  split
  next h =>
    have hlt := UInt32.lt_iff_toNat_lt.mp h
    rw [UInt32.toNat_zero, Nat.sub_eq_zero_of_le (Nat.le_of_lt hlt)]
  next h => exact UInt32.toNat_sub_of_le a b (UInt32.not_lt.mp h)

/-- A sum is that of natural numbers, cut off at the greatest number. -/
theorem toNat_saturatingAdd (a b : UInt32) :
    (saturatingAdd a b).toNat = min (a.toNat + b.toNat) (2 ^ 32 - 1) := by
  have ha := a.toNat_lt
  have hb := b.toNat_lt
  have hgreatest : greatest.toNat = 2 ^ 32 - 1 := rfl
  unfold saturatingAdd
  simp only [UInt32.lt_iff_toNat_lt, UInt32.toNat_add]
  split
  next hwrapped =>
    rw [hgreatest]
    omega
  next hwhole =>
    rw [UInt32.toNat_add]
    omega

/-- A number is cut off at the greatest one. -/
theorem toNat_ofNatClamp (n : Nat) : (UInt32.ofNatClamp n).toNat = min n (2 ^ 32 - 1) := by
  by_cases h : n < UInt32.size
  · rw [UInt32.toNat_ofNatClamp_of_lt h]
    exact (Nat.min_eq_left (Nat.le_sub_one_of_lt h)).symm
  · rw [UInt32.toNat_ofNatClamp_of_le (Nat.le_of_not_lt h)]
    exact (Nat.min_eq_right (Nat.le_trans (Nat.sub_le _ 1) (Nat.le_of_not_lt h))).symm

end Word

/-! ### Locations of points -/

/-- **Locations are as different as their points**, where these fit. -/
theorem Location.ofPoint_inj {p q : Point} (hp : p.Fits) (hq : q.Fits) :
    ofPoint p = ofPoint q ↔ p = q := by
  refine ⟨fun h => ?_, fun h => h ▸ rfl⟩
  obtain ⟨hline, hcolumn⟩ := toNat_ofPoint hp
  obtain ⟨hline', hcolumn'⟩ := toNat_ofPoint hq
  rw [h] at hline hcolumn
  have hrow : p.row = q.row := Nat.succ.inj (hline.symm.trans hline')
  have hcolumns : p.column = q.column := Nat.succ.inj (hcolumn.symm.trans hcolumn')
  cases p
  cases q
  rw [Point.mk.injEq]
  exact ⟨hrow, hcolumns⟩

/-! ### Ranges -/

namespace Diagnostic

/-- A range starts at the line and the column of its issue, counted from zero. -/
theorem start_ofIssue (i : Issue) :
    (ofIssue i).start = ⟨i.line.toNat - 1, i.column.toNat - 1⟩ := by
  change Position.ofWords (Word.saturatingSub i.line 1) (Word.saturatingSub i.column 1) = _
  rw [Position.ofWords, Word.toNat_saturatingSub, Word.toNat_saturatingSub, UInt32.toNat_one]

/-- A range stops in its line, as many bytes later as the name of its issue has, but not after the
last column that there can be. -/
theorem stop_ofIssue (i : Issue) :
    (ofIssue i).stop = ⟨(ofIssue i).start.line,
      min ((ofIssue i).start.character + i.name.utf8ByteSize) (2 ^ 32 - 1)⟩ := by
  change Position.ofWords (Word.saturatingSub i.line 1)
    (Word.saturatingAdd (Word.saturatingSub i.column 1)
      (UInt32.ofNatClamp i.name.utf8ByteSize)) = _
  rw [start_ofIssue, Position.ofWords, Word.toNat_saturatingSub, Word.toNat_saturatingAdd,
    Word.toNat_saturatingSub, Word.toNat_ofNatClamp, UInt32.toNat_one]
  have hcut : min (i.column.toNat - 1 + min i.name.utf8ByteSize (2 ^ 32 - 1)) (2 ^ 32 - 1) =
      min (i.column.toNat - 1 + i.name.utf8ByteSize) (2 ^ 32 - 1) := by omega
  rw [hcut]

/-- Starts are positions of 32 bits. -/
theorem start_lt (i : Issue) :
    (ofIssue i).start.line < 2 ^ 32 ∧ (ofIssue i).start.character < 2 ^ 32 := by
  have hline := i.line.toNat_lt
  have hcolumn := i.column.toNat_lt
  rw [start_ofIssue]
  exact ⟨Nat.lt_of_le_of_lt (Nat.sub_le _ 1) hline, Nat.lt_of_le_of_lt (Nat.sub_le _ 1) hcolumn⟩

/-- No range stops before it starts. -/
theorem start_character_le_stop (i : Issue) :
    (ofIssue i).start.character ≤ (ofIssue i).stop.character := by
  have hstart := (start_lt i).2
  rw [stop_ofIssue]
  exact Nat.le_min.mpr ⟨Nat.le_add_right _ _, Nat.le_sub_one_of_lt hstart⟩

/-- The range of an issue at a node whose point fits starts exactly at that point. -/
theorem start_of_isAt {i : Issue} {node : SyntaxTree} (hat : Scan.IsAt i node)
    (hfits : node.point.Fits) :
    1 ≤ i.line.toNat ∧ 1 ≤ i.column.toNat ∧
      (ofIssue i).start = ⟨node.point.row, node.point.column⟩ := by
  obtain ⟨hline, hcolumn⟩ := Location.toNat_ofPoint hfits
  rw [← hat] at hline hcolumn
  change i.line.toNat = _ at hline
  change i.column.toNat = _ at hcolumn
  refine ⟨by omega, by omega, ?_⟩
  rw [start_ofIssue, hline, hcolumn]
  rfl

/-- **Positions survive.**  Every issue of a file is at a node of its tree.  If the row and the
column of that node are less than the greatest number of 32 bits, the line and the column of the
issue are at least one, and its range starts exactly at the point of the node, stays in its line,
does not stop before it starts, and is as long as the name of the issue, unless it is cut off at
the greatest number.  On such points locations are injective and keep the order.

For an issue of any origin, a line or a column of zero counts as one: its range starts there, and
is one of 32 bits again. -/
theorem positions_survive :
    (∀ (s : Scanner) (file : SourceFile), ∀ i ∈ s.scanFile file, ∃ language,
      ScanLanguage.ofPath file.path = some language ∧
      ∃ node ∈ (s.parsers.tree language file.path file.content).preorder, Scan.IsAt i node) ∧
    (∀ (i : Issue) (node : SyntaxTree), Scan.IsAt i node → node.point.Fits →
      1 ≤ i.line.toNat ∧ 1 ≤ i.column.toNat ∧
      (ofIssue i).start = ⟨node.point.row, node.point.column⟩ ∧
      (ofIssue i).stop = ⟨node.point.row,
        min (node.point.column + i.name.utf8ByteSize) (2 ^ 32 - 1)⟩ ∧
      node.point.column ≤ (ofIssue i).stop.character) ∧
    (∀ p q : Point, p.Fits → q.Fits →
      (Location.ofPoint p = .ofPoint q ↔ p = q) ∧
      ((Location.ofPoint p).le (.ofPoint q) = true ↔ p ≤ q)) ∧
    (∀ i : Issue,
      (ofIssue i).start = ⟨i.line.toNat - 1, i.column.toNat - 1⟩ ∧
      (i.line = 0 → (ofIssue i).start.line = 0) ∧
      (i.column = 0 → (ofIssue i).start.character = 0) ∧
      (ofIssue i).stop.line = (ofIssue i).start.line ∧
      (ofIssue i).start.character ≤ (ofIssue i).stop.character ∧
      (ofIssue i).start.line < 2 ^ 32 ∧ (ofIssue i).stop.character < 2 ^ 32) := by
  refine ⟨fun s file i hi => ?_, fun i node hat hfits => ?_, fun p q hp hq => ?_, fun i => ?_⟩
  · obtain ⟨language, hlanguage, hreports⟩ := s.exists_use_of_mem_scanFile hi
    exact ⟨language, hlanguage, hreports.exists_isAt⟩
  · obtain ⟨hline, hcolumn, hstart⟩ := start_of_isAt hat hfits
    have hstop := stop_ofIssue i
    have hle := start_character_le_stop i
    rw [hstart] at hstop hle
    exact ⟨hline, hcolumn, hstart, hstop, hle⟩
  · exact ⟨Location.ofPoint_inj hp hq, Location.ofPoint_le_iff hp hq⟩
  · refine ⟨start_ofIssue i, fun hline => ?_, fun hcolumn => ?_, ?_, start_character_le_stop i,
      (start_lt i).1, ?_⟩
    · rw [start_ofIssue, hline]
      rfl
    · rw [start_ofIssue, hcolumn]
      rfl
    · rw [stop_ofIssue]
    · rw [stop_ofIssue]
      exact Nat.lt_of_le_of_lt (Nat.min_le_right _ _) (by decide)

/-- A name at the last point that fits, found by a scan: its range is cut off in the last column,
and the point before has another location.  An issue that lies nowhere has its range at the start
of its file. -/
theorem positions_survive_far :
    let last : Point := ⟨0xFFFFFFFE, 0xFFFFFFFE⟩
    let before : Point := ⟨0xFFFFFFFE, 0xFFFFFFFD⟩
    let node : SyntaxTree := .node "identifier" 0 5 last []
    let tree := fun _ => node
    let s := Scanner.ofCatalog ⟨fun _ => tree, tree, tree⟩
      [.ofParts "api-fetch" "Fetch" (some "limited")] {}
    let i : Issue := ⟨"a.js", "api-fetch", "Fetch", .limited, .high, 0xFFFFFFFF, 0xFFFFFFFF⟩
    s.scanFile ⟨"a.js", "fetch"⟩ = [i] ∧ Scan.IsAt i node ∧ last.Fits ∧ before.Fits ∧
      (ofIssue i).start = ⟨last.row, last.column⟩ ∧ (ofIssue i).stop = ⟨last.row, 2 ^ 32 - 1⟩ ∧
      Location.ofPoint before ≠ .ofPoint last ∧
      (Location.ofPoint before).le (.ofPoint last) = true ∧
      (ofIssue { i with line := 0, column := 0 }).start = ⟨0, 0⟩ := by
  intro last before node tree s i
  have hfits : last.Fits ∧ before.Fits := by decide
  have hscan : s.scanFile ⟨"a.js", "fetch"⟩ = [i] :=
    (Scan.scanFile_script _ _ _ "fetch" (by decide +kernel)).trans (by decide +kernel)
  obtain ⟨hnodes, hranges, hpoints, hall⟩ := positions_survive
  obtain ⟨language, -, found, hfound, hat⟩ := hnodes s _ i (hscan ▸ List.mem_singleton_self i)
  obtain rfl : found = node := by
    cases language <;> exact List.mem_singleton.mp hfound
  obtain ⟨-, -, hstart, hstop, -⟩ := hranges i node hat hfits.1
  obtain ⟨hsame, hbefore⟩ := hpoints before last hfits.2 hfits.1
  obtain ⟨hnowhere, -⟩ := hall { i with line := 0, column := 0 }
  refine ⟨hscan, hat, hfits.1, hfits.2, hstart, hstop, ?_, hbefore.mpr (by decide), hnowhere⟩
  exact fun heq => absurd (hsame.mp heq) (by decide)

end Diagnostic

end WebBaseline
