import Mathlib.Data.Nat.Digits.Defs
import WebBaseline.Proofs.Report.Reimport
import WebBaseline.Proofs.Report.Sections
import WebBaseline.Report.Terminal

/-!
# The box of the summary

Fields are brought to the width of the box by blanks at their end, and a field
that is too long would push the border aside.  Numbers of 64 bits have 20 digits
at most, and with these the longest field still leaves a column free.

* `forall_mem_fields`, `forall_mem_boxLines` — what holds of all fields and of all lines of the box;
* `length_lt_of_mem_fields` — the lengths of fields;
* `bordered_of_mem_boxLines` — all lines of the box reach from border to border;
* `lines_terminalText` — the lines of the text;
* `summary_box_rectangular` — the boxes of all reports, and the entries after them.
-/

namespace WebBaseline

namespace Text

/-- A number of 64 bits has 20 digits at most. -/
theorem length_natural_le {n : Nat} (h : n < Bound.unsigned64) : (toString n).length ≤ 20 :=
  Nat.repr_length n 20 (by decide) (Nat.lt_trans h (by decide))

end Text

namespace Report

/-! ### Fields -/

section Fields

variable {r : Report}

/-- The field that counts the issues of a status. -/
def statusField (s : Status) (count : Nat) : String :=
  "  " ++ Text.padRight 22 s.label ++ toString count

/-- The value of the field for the catalog. -/
def catalogText (r : Report) : String :=
  toString r.catalogSize ++ " features" ++ (if r.offline then " (offline)" else "")

/-- What holds of each field. -/
theorem forall_mem_fields {P : String → Prop} : (∀ f ∈ r.fields, P f) ↔
    (P (labelled "Score" r.scoreText) ∧ P (labelled "Files" (toString r.filesScanned)) ∧
      P (labelled "Issues" (toString r.result.issues.length))) ∧
    (∀ s ∈ Status.all, P (statusField s (r.result.counts.get s))) ∧
    P (labelled "Catalog" r.catalogText) := by
  simp only [fields, List.forall_mem_append, List.forall_mem_cons, List.forall_mem_map,
    List.not_mem_nil, false_implies, implies_true, and_true, and_assoc]
  rfl

/-- A field's value starts at the same column for all short names. -/
theorem length_labelled {name : String} (hname : name.length < 14) (value : String) :
    (labelled name value).length = 14 + value.length := by
  have hcolon : (name ++ ":").length ≤ 14 := by
    rw [String.length_append]
    exact hname
  rw [labelled, String.length_append, Text.length_padRight hcolon]

/-- A value of at most 39 characters makes a field that is shorter than the box is wide. -/
theorem length_labelled_lt {name value : String} (hname : name.length < 14)
    (hvalue : value.length ≤ 39) : (labelled name value).length < fieldWidth := by
  rw [length_labelled hname, fieldWidth]
  omega

theorem length_scoreText_le (h : r.result.score < Bound.unsigned64) : r.scoreText.length ≤ 27 := by
  have hnumber := Text.length_natural_le h
  have hname : r.result.band.name.length ≤ 4 := by cases r.result.band <;> decide
  have hopen : " (".length = 2 := rfl
  have hclose : ")".length = 1 := rfl
  simp only [scoreText, String.length_append]
  omega

theorem length_statusField_le (s : Status) {count : Nat} (h : count < Bound.unsigned64) :
    (statusField s count).length ≤ 44 := by
  have hnumber := Text.length_natural_le h
  have hlabel : s.label.length ≤ 22 := by cases s <;> decide
  have hblanks : "  ".length = 2 := rfl
  rw [statusField, String.length_append, String.length_append, Text.length_padRight hlabel]
  omega

theorem length_catalogText_le (h : r.catalogSize < Bound.unsigned64) :
    r.catalogText.length ≤ 39 := by
  have hnumber := Text.length_natural_le h
  have hunit : " features".length = 9 := rfl
  have hsuffix : (if r.offline then " (offline)" else "").length ≤ 10 := by
    cases r.offline <;> decide
  rw [catalogText, String.length_append, String.length_append]
  omega

/-- **Fields.**  A field is shorter than the box is wide. -/
theorem length_lt_of_mem_fields (h : r.ShowsWords) : ∀ f ∈ r.fields, f.length < fieldWidth := by
  have hfiles := Text.length_natural_le h.filesScanned
  have hissues := Text.length_natural_le h.issues
  refine forall_mem_fields.mpr ⟨⟨?score, ?files, ?issues⟩, fun s _ => ?status, ?catalog⟩
  case score =>
    exact length_labelled_lt (by decide) (Nat.le_trans (length_scoreText_le h.score) (by decide))
  case files => exact length_labelled_lt (by decide) (by omega)
  case issues => exact length_labelled_lt (by decide) (by omega)
  case status => exact Nat.lt_of_le_of_lt (length_statusField_le s (h.counts s)) (by decide)
  case catalog => exact length_labelled_lt (by decide) (length_catalogText_le h.catalogSize)

/-- The longest field leaves one column. -/
example : (labelled "Catalog" (toString 18446744073709551615 ++ " features" ++
    " (offline)")).length + 1 = fieldWidth := by decide

theorem onOneLine_labelled {name value : String} (hname : Text.OnOneLine name)
    (hvalue : Text.OnOneLine value) : Text.OnOneLine (labelled name value) := by
  rw [labelled, Text.onOneLine_append]
  exact ⟨Text.onOneLine_padRight (Text.onOneLine_append.mpr ⟨hname, by decide⟩), hvalue⟩

theorem onOneLine_of_mem_fields (r : Report) : ∀ f ∈ r.fields, Text.OnOneLine f := by
  have hnumber : ∀ {name : String} (n : Nat), Text.OnOneLine name →
      Text.OnOneLine (labelled name (toString n)) :=
    fun n hname => onOneLine_labelled hname (Text.onOneLine_natural n)
  refine forall_mem_fields.mpr ⟨⟨onOneLine_labelled (by decide) ?score, hnumber _ (by decide),
    hnumber _ (by decide)⟩, fun s _ => ?status, onOneLine_labelled (by decide) ?catalog⟩
  case score =>
    have hband : Text.OnOneLine r.result.band.name := by cases r.result.band <;> decide
    simp only [scoreText, Text.onOneLine_append, Text.onOneLine_natural, hband, and_true, true_and]
    decide
  case status =>
    have hlabel : Text.OnOneLine s.label := by cases s <;> decide
    simp only [statusField, Text.onOneLine_append, Text.onOneLine_natural,
      Text.onOneLine_padRight hlabel, and_true]
    decide
  case catalog =>
    have hsuffix : Text.OnOneLine (if r.offline then " (offline)" else "") := by
      cases r.offline <;> decide
    simp only [catalogText, Text.onOneLine_append, Text.onOneLine_natural, hsuffix, and_true,
      true_and]
    decide

end Fields

/-! ### The box -/

/-- What holds of each line of the box. -/
theorem forall_mem_boxLines {r : Report} {P : String → Prop} : (∀ l ∈ r.boxLines, P l) ↔
    (P (boxRule '┌' '┐') ∧ P (titleLine "Baseline Scan Summary") ∧ P (boxRule '├' '┤')) ∧
    (∀ f ∈ r.fields, P (boxLine f)) ∧ P (boxRule '└' '┘') := by
  simp only [boxLines, List.forall_mem_append, List.forall_mem_cons, List.forall_mem_map,
    List.not_mem_nil, false_implies, implies_true, and_true, and_assoc]

/-- Whether a line reaches from a character of the left border to one of the right border. -/
def Bordered (l : String) : Prop :=
  ∃ left ∈ ['┌', '├', '│', '└'], ∃ right ∈ ['┐', '┤', '│', '┘'], ∃ inner,
    l.toList = left :: (inner ++ [right]) ∧ inner.length = fieldWidth + 4

theorem Bordered.length_eq {l : String} (h : Bordered l) : l.length = fieldWidth + 6 := by
  obtain ⟨left, -, right, -, inner, hline, hinner⟩ := h
  rw [← String.length_toList, hline, List.length_cons, List.length_append, hinner]
  rfl

theorem bordered_boxRule {left right : Char} (hleft : left ∈ ['┌', '├', '│', '└'])
    (hright : right ∈ ['┐', '┤', '│', '┘']) : Bordered (boxRule left right) :=
  ⟨left, hleft, right, hright, List.replicate (fieldWidth + 4) '─',
    String.toList_ofList, List.length_replicate⟩

/-- A field that is not too long leaves the border where it is. -/
theorem bordered_boxLine {field : String} (h : field.length ≤ fieldWidth) :
    Bordered (boxLine field) := by
  refine ⟨'│', by decide, '│', by decide,
    ' ' :: ' ' :: ((Text.padRight fieldWidth field).toList ++ [' ', ' ']), ?_, ?_⟩
  · simp [boxLine]
  · rw [List.length_cons, List.length_cons, List.length_append, String.length_toList,
      Text.length_padRight h]
    rfl

theorem bordered_titleLine {title : String} (h : title.length ≤ fieldWidth + 3) :
    Bordered (titleLine title) := by
  refine ⟨'│', by decide, '│', by decide,
    ' ' :: (Text.padRight (fieldWidth + 3) title).toList, ?_, ?_⟩
  · simp [titleLine]
  · rw [List.length_cons, String.length_toList, Text.length_padRight h]

/-- **The box.**  All its lines reach from border to border. -/
theorem bordered_of_mem_boxLines {r : Report} (h : r.ShowsWords) :
    ∀ l ∈ r.boxLines, Bordered l := by
  refine forall_mem_boxLines.mpr ⟨⟨bordered_boxRule (by decide) (by decide),
    bordered_titleLine (by decide), bordered_boxRule (by decide) (by decide)⟩, fun f hf => ?_,
    bordered_boxRule (by decide) (by decide)⟩
  exact bordered_boxLine (Nat.le_of_lt (length_lt_of_mem_fields h f hf))

theorem onOneLine_boxRule {left right : Char} (hleft : Text.isLineBreak left = false)
    (hright : Text.isLineBreak right = false) : Text.OnOneLine (boxRule left right) := by
  intro c hc
  rw [boxRule, String.toList_ofList, List.mem_append, List.mem_cons, List.mem_singleton] at hc
  rcases hc with (rfl | hinner) | rfl
  · exact hleft
  · exact List.eq_of_mem_replicate hinner ▸ rfl
  · exact hright

theorem onOneLine_of_mem_boxLines (r : Report) : ∀ l ∈ r.boxLines, Text.OnOneLine l := by
  refine forall_mem_boxLines.mpr ⟨⟨onOneLine_boxRule (by decide) (by decide), ?title,
    onOneLine_boxRule (by decide) (by decide)⟩, fun f hf => ?field,
    onOneLine_boxRule (by decide) (by decide)⟩
  case title =>
    have htitle : Text.OnOneLine "Baseline Scan Summary" := by decide
    simp only [titleLine, Text.onOneLine_append, Text.onOneLine_padRight htitle, and_true]
    decide
  case field =>
    simp only [boxLine, Text.onOneLine_append,
      Text.onOneLine_padRight (r.onOneLine_of_mem_fields f hf), and_true]
    decide

/-! ### The text -/

/-- The lines between the box and the entries: a remark on a run that was cancelled, and a blank
line if there are entries. -/
def remarkLines (r : Report) : List String :=
  (if r.cancelled then ["", "Scan cancelled; results are partial."] else []) ++
    (if r.result.issues.isEmpty then [] else [""])

/-- The lines of a report, put together from its parts. -/
theorem terminalLines_eq (r : Report) : r.terminalLines =
    ("" :: r.boxLines ++ r.remarkLines) ++ r.result.issues.map issueEntry := by
  simp [terminalLines, remarkLines]

theorem onOneLine_of_mem_remarkLines (r : Report) : ∀ l ∈ r.remarkLines, Text.OnOneLine l := by
  unfold remarkLines
  cases r.cancelled <;> cases r.result.issues.isEmpty <;> decide

/-- **The lines of the text.**  The box comes first, and then the lines of the entries. -/
theorem lines_terminalText (r : Report) : Text.lines r.terminalText =
    "" :: r.boxLines ++ r.remarkLines ++ (r.result.issues.map issueEntry).flatMap Text.lines ++
      [""] := by
  have hfirst : ∀ l ∈ "" :: r.boxLines ++ r.remarkLines, Text.OnOneLine l := by
    simp only [List.forall_mem_append, List.forall_mem_cons]
    exact ⟨⟨by decide, r.onOneLine_of_mem_boxLines⟩, r.onOneLine_of_mem_remarkLines⟩
  rw [terminalText, Text.lines_textOfLines, terminalLines_eq, List.flatMap_append,
    Text.flatMap_lines_eq_self hfirst]

/-- The entry of an issue without line breaks is one line. -/
theorem onOneLine_issueEntry {i : Issue} (h : i.OnOneLine) : Text.OnOneLine (issueEntry i) := by
  have hpriority : Text.OnOneLine i.priority.name := by cases i.priority <;> decide
  have hlabel : Text.OnOneLine i.status.label := by cases i.status <;> decide
  simp only [issueEntry, Location.text, Text.onOneLine_append, Text.onOneLine_natural, h.file,
    h.name, h.featureId, hpriority, hlabel, and_true, true_and]
  decide

/-- **The box is rectangular.**  For every report with numbers of 64 bits:

* the lines of its text are a blank line, the twelve lines of the box, the remarks, and the lines of
  the entries;
* all lines of the box are equally long and reach from border to border, for each field leaves at
  least one of its columns free;
* the text after the box and the remarks consists of one entry for each issue, in the order of the
  result, and these are its lines unless an issue has line breaks in it. -/
theorem summary_box_rectangular (r : Report) (h : r.ShowsWords) :
    let entries := r.result.issues.map issueEntry
    (Text.lines r.terminalText =
      "" :: r.boxLines ++ r.remarkLines ++ entries.flatMap Text.lines ++ [""] ∧
      r.boxLines.length = 12) ∧
    (∀ l ∈ r.boxLines, l.length = fieldWidth + 6 ∧ Bordered l) ∧
    (∀ f ∈ r.fields, f.length < fieldWidth) ∧
    r.terminalText = textOfLines ("" :: r.boxLines ++ r.remarkLines) ++ textOfLines entries ∧
    ((∀ i ∈ r.result.issues, i.OnOneLine) →
      Text.lines r.terminalText =
        "" :: r.boxLines ++ r.remarkLines ++ entries ++ [""]) := by
  intro entries
  have hlines := r.lines_terminalText
  refine ⟨⟨hlines, rfl⟩, fun l hl => ?_, length_lt_of_mem_fields h, ?_, fun hissues => ?_⟩
  · have hbordered := bordered_of_mem_boxLines h l hl
    exact ⟨hbordered.length_eq, hbordered⟩
  · rw [terminalText, terminalLines_eq, Text.textOfLines_append]
  · have hentries : ∀ l ∈ entries, Text.OnOneLine l :=
      List.forall_mem_map.mpr fun i hi => onOneLine_issueEntry (hissues i hi)
    rw [hlines, Text.flatMap_lines_eq_self hentries]

/-- A report with the greatest numbers there are. -/
theorem summary_box_rectangular_greatest :
    let issue : Issue := ⟨"a.css", "css-properties-gap", "gap", .limited, .high, 1, 5⟩
    let r : Report := {
      root := "site", generatedAt := 0, filesScanned := 18446744073709551615, cancelled := true
      catalogSize := 18446744073709551615, freshness := .stale, offline := true
      result := ⟨[issue], ⟨0, 0, 18446744073709551615, 0⟩, 100⟩ }
    (r.ShowsWords ∧ ∀ i ∈ r.result.issues, i.OnOneLine) ∧
      (∀ l ∈ r.boxLines, l.length = 60) ∧
      Text.lines r.terminalText = "" :: r.boxLines ++
        ["", "Scan cancelled; results are partial.", "",
          "a.css:1:5  [High] gap (css-properties-gap, limited availability)", ""] := by
  intro issue r
  have hfits : r.ShowsWords :=
    ⟨⟨by decide, by decide, by decide⟩, by decide, fun s => by cases s <;> decide⟩
  have hissues : ∀ i ∈ r.result.issues, i.OnOneLine :=
    List.forall_mem_singleton.mpr ⟨by decide, by decide, by decide⟩
  have hbox := summary_box_rectangular r hfits
  have hremarks : r.remarkLines = ["", "Scan cancelled; results are partial.", ""] := rfl
  have hentry : issueEntry issue =
      "a.css:1:5  [High] gap (css-properties-gap, limited availability)" := by decide
  have hlines : Text.lines r.terminalText =
      "" :: r.boxLines ++ r.remarkLines ++ [issueEntry issue] ++ [""] := hbox.2.2.2.2 hissues
  refine ⟨⟨hfits, hissues⟩, fun l hl => (hbox.2.1 l hl).1, ?_⟩
  rw [hlines, hremarks, hentry, List.append_assoc, List.append_assoc]
  rfl

end Report

end WebBaseline
