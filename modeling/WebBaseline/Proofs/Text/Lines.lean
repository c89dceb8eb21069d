import Mathlib.Data.List.Basic
import WebBaseline.Report.Basic

/-!
# Lines

A line feed or a carriage return ends a line.  What is written as a list of
lines is read back as these lines, unless some of them are several.

* `OnOneLine` — texts without line breaks, and what is made of such texts;
* `textOfLines_append` — lines are written one after the other;
* `lines_textOfLines_append`, `lines_textOfLines` — the lines of a text that starts with given
  lines, and of one that consists of them.
-/

namespace WebBaseline.Text

/-- Whether a character ends a line. -/
def isLineBreak (c : Char) : Bool := c == '\n' || c == '\r'

/-- The lines of a text.  What comes after the last line break is one of them. -/
def lines (s : String) : List String := (s.toList.splitOnP isLineBreak).map String.ofList

/-- Whether a text has no line breaks. -/
def OnOneLine (s : String) : Prop := ∀ c ∈ s.toList, isLineBreak c = false

-- The characters of the text are tried, and not all characters there are.
instance (s : String) : Decidable (OnOneLine s) :=
  List.decidableBAll (fun c => isLineBreak c = false) s.toList

/-- Texts on one line are put together on one line, and no others. -/
@[simp] theorem onOneLine_append {s t : String} :
    OnOneLine (s ++ t) ↔ OnOneLine s ∧ OnOneLine t := by
  simp only [OnOneLine, String.toList_append, List.forall_mem_append]

/-- A number is written with digits. -/
theorem isDigit_of_mem_natural {n : Nat} {c : Char} (h : c ∈ (toString n).toList) :
    c.isDigit = true := by
  apply Nat.isDigit_of_mem_toDigits (show 0 < 10 by decide) (by decide)
  rwa [← Nat.toList_repr]

/-- A number stands on one line. -/
@[simp] theorem onOneLine_natural (n : Nat) : OnOneLine (toString n) := by
  intro c hc
  have hdigit : c.isDigit = true := isDigit_of_mem_natural hc
  cases hbreak : isLineBreak c with
  | false => rfl
  | true =>
      rw [isLineBreak, Bool.or_eq_true, beq_iff_eq, beq_iff_eq] at hbreak
      rcases hbreak with rfl | rfl
      · exact absurd hdigit (by decide)
      · exact absurd hdigit (by decide)

/-- As many equal characters as there may be stand on one line. -/
theorem onOneLine_replicate {c : Char} (hc : isLineBreak c = false) (count : Nat) :
    OnOneLine (String.ofList (List.replicate count c)) := by
  intro d hd
  rw [String.toList_ofList] at hd
  exact List.eq_of_mem_replicate hd ▸ hc

/-- A text on one line stays on one line with blanks at its end. -/
theorem onOneLine_padRight {width : Nat} {s : String} (h : OnOneLine s) :
    OnOneLine (padRight width s) :=
  onOneLine_append.mpr ⟨h, onOneLine_replicate (by decide) _⟩

/-- A text on one line is its only line. -/
theorem OnOneLine.lines_eq {s : String} (h : OnOneLine s) : lines s = [s] := by
  rw [lines, List.splitOnP_eq_singleton h, List.map_singleton, String.ofList_toList]

/-- A line feed separates lines. -/
theorem lines_append_lineFeed (s t : String) : lines (s ++ "\n" ++ t) = lines s ++ lines t := by
  have hbreak : (s ++ "\n" ++ t).toList = s.toList ++ '\n' :: t.toList := by simp
  rw [lines, hbreak, List.splitOnP_append_cons _ _ (by decide), List.map_append]
  rfl

/-- Lines are written one after the other. -/
theorem textOfLines_append (ls ms : List String) :
    textOfLines (ls ++ ms) = textOfLines ls ++ textOfLines ms := by
  rw [← String.toList_inj]
  simp [textOfLines, String.toList_join]

/-- **The lines of written lines.**  Each written line gives its own lines, and
what follows comes after them. -/
theorem lines_textOfLines_append (ls : List String) (t : String) :
    lines (textOfLines ls ++ t) = ls.flatMap lines ++ lines t := by
  induction ls with
  | nil => simp [textOfLines]
  | cons l rest ih =>
      have hsplit : textOfLines (l :: rest) ++ t = l ++ "\n" ++ (textOfLines rest ++ t) := by
        rw [← String.toList_inj]
        simp [textOfLines, String.toList_join]
      rw [hsplit, lines_append_lineFeed, ih, List.flatMap_cons, List.append_assoc]

/-- After the last of the written lines there is an empty one. -/
theorem lines_textOfLines (ls : List String) :
    lines (textOfLines ls) = ls.flatMap lines ++ [""] := by
  have hlines := lines_textOfLines_append ls ""
  rwa [String.append_empty] at hlines

/-- Lines that are on one line each are read back as they are. -/
theorem flatMap_lines_eq_self {ls : List String} (h : ∀ l ∈ ls, OnOneLine l) :
    ls.flatMap lines = ls := by
  rw [List.flatMap_congr fun l hl => (h l hl).lines_eq]
  exact List.flatMap_singleton' ls

end WebBaseline.Text
