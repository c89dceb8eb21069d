import Mathlib.Data.List.Infix
import WebBaseline.Report.Markdown

/-!
# Vertical bars

A vertical bar ends a cell of a table unless it is escaped, that is, unless the
number of backslashes right before it is odd.

* `openBars`, `escapedBars` — how many bars of a text are not escaped, or are;
* `countBars`, `bars_eq` — counting them from the left, with the parity of the
  backslashes that were read last;
* `bars_append_of_parity`, `bars_separated` — texts that are put together;
* `openBars_cellText` — what the text of a cell does to bars.
-/

namespace WebBaseline.Text

/-- Whether an odd number of backslashes stands at the end of a text. -/
def endsInOddBackslashes (before : List Char) : Bool :=
  (before.reverse.takeWhile (· == '\\')).length % 2 == 1

/-- How many bars of a text have an odd number of backslashes right before them, or
an even one. -/
def bars (odd : Bool) (s : String) : Nat :=
  (s.toList.inits.zip s.toList).countP fun (before, c) =>
    c == '|' && endsInOddBackslashes before == odd

/-- How many bars of a text are not escaped. -/
def openBars (s : String) : Nat := bars false s

/-- How many bars of a text are escaped. -/
def escapedBars (s : String) : Nat := bars true s

/-! ### Counting from the left -/

/-- The parity of the backslashes that were read last, after one more character. -/
def parityAfter (parity : Bool) (c : Char) : Bool := if c = '\\' then !parity else false

/-- How many bars come after backslashes of the parity `odd`, if `parity` is that
of the backslashes before the text. -/
def countBars (odd : Bool) : Bool → List Char → Nat
  | _, [] => 0
  | parity, c :: rest =>
    (if c = '|' ∧ parity = odd then 1 else 0) + countBars odd (parityAfter parity c) rest

theorem endsInOddBackslashes_append_singleton (before : List Char) (c : Char) :
    endsInOddBackslashes (before ++ [c]) = parityAfter (endsInOddBackslashes before) c := by
  rw [endsInOddBackslashes, endsInOddBackslashes, parityAfter, List.reverse_append]
  by_cases hc : c = '\\'
  · subst hc
    simp only [List.reverse_singleton, List.singleton_append, List.takeWhile_cons, beq_self_eq_true,
      if_true, List.length_cons]
    generalize (before.reverse.takeWhile (· == '\\')).length = n
    rcases Nat.mod_two_eq_zero_or_one n with h | h <;> simp [Nat.add_mod, h]
  · simp [hc]

/-- Counting may start in the middle of a text. -/
theorem countP_inits_eq (odd : Bool) (before cs : List Char) :
    ((cs.inits.map (before ++ ·)).zip cs).countP
      (fun (before, c) => c == '|' && endsInOddBackslashes before == odd) =
    countBars odd (endsInOddBackslashes before) cs := by
  induction cs generalizing before with
  | nil => rfl
  | cons c rest ih =>
      have hinits : ((c :: rest).inits.map (before ++ ·)).zip (c :: rest) =
          (before, c) :: ((rest.inits.map (before ++ [c] ++ ·)).zip rest) := by
        simp [Function.comp_def]
      rw [hinits, List.countP_cons, ih, endsInOddBackslashes_append_singleton, countBars,
        Nat.add_comm]
      simp

/-- **Counting from the left** gives the number of bars. -/
theorem bars_eq (odd : Bool) (s : String) : bars odd s = countBars odd false s.toList := by
  have h := countP_inits_eq odd [] s.toList
  simpa [bars, endsInOddBackslashes] using h

theorem countBars_append (odd parity : Bool) (cs ds : List Char) :
    countBars odd parity (cs ++ ds) =
      countBars odd parity cs + countBars odd (cs.foldl parityAfter parity) ds := by
  induction cs generalizing parity with
  | nil => simp [countBars]
  | cons c rest ih => simp [countBars, ih, Nat.add_assoc]

/-- Before another character than a backslash or a bar nothing needs to be known. -/
theorem countBars_cons_of_ne {odd parity : Bool} {c : Char} (hbackslash : c ≠ '\\') (hbar : c ≠ '|')
    (cs : List Char) : countBars odd parity (c :: cs) = countBars odd false cs := by
  simp [countBars, parityAfter, hbackslash, hbar]

/-- Texts without bars have none. -/
theorem countBars_eq_zero {odd parity : Bool} {cs : List Char} (h : '|' ∉ cs) :
    countBars odd parity cs = 0 := by
  induction cs generalizing parity with
  | nil => rfl
  | cons c rest ih =>
      obtain ⟨hne, hrest⟩ := not_or.mp (mt List.mem_cons.mpr h)
      simp [countBars, Ne.symm hne, ih hrest]

/-! ### Texts that are put together -/

/-- A text whose last character is no backslash has no say in the bars after it. -/
theorem bars_append_of_parity {odd : Bool} {s : String}
    (h : s.toList.foldl parityAfter false = false) (t : String) :
    bars odd (s ++ t) = bars odd s + bars odd t := by
  rw [bars_eq, bars_eq, bars_eq, String.toList_append, countBars_append, h]

/-- Whether a text keeps apart what stands before it and after it: it starts with
neither a backslash nor a bar, and its last character is no backslash. -/
def separates (separator : String) : Bool :=
  match separator.toList with
  | [] => false
  | c :: cs => c != '\\' && c != '|' && !(c :: cs).foldl parityAfter false

/-- **Separated texts.**  Their bars are counted each by itself. -/
theorem bars_separated {odd : Bool} {separator : String} (h : separates separator = true)
    (s t : String) :
    bars odd (s ++ (separator ++ t)) = bars odd s + (bars odd separator + bars odd t) := by
  rw [separates] at h
  split at h
  · cases h
  · rename_i c cs hchars
    simp only [Bool.and_eq_true, bne_iff_ne, Bool.not_eq_true'] at h
    obtain ⟨⟨hbackslash, hbar⟩, hparity⟩ := h
    rw [← bars_append_of_parity (hchars ▸ hparity), bars_eq, bars_eq, bars_eq, String.toList_append,
      countBars_append, String.toList_append, hchars, List.cons_append,
      countBars_cons_of_ne hbackslash hbar, countBars_cons_of_ne hbackslash hbar]

/-- Texts without bars have none. -/
theorem bars_eq_zero {odd : Bool} {s : String} (h : '|' ∉ s.toList) : bars odd s = 0 := by
  rw [bars_eq, countBars_eq_zero h]

/-- **Cells.**  The bars of a cell that are not escaped are those that were
escaped before: the backslash that is put before a bar makes their number even. -/
theorem openBars_cellText (s : String) : openBars (Report.cellText s) = escapedBars s := by
  have hcell : (Report.cellText s).toList =
      s.toList.flatMap fun c => if c = '|' then ['\\', '|'] else [c] := by
    rw [Report.cellText, String.toList_join, List.flatMap_map]
    refine List.flatMap_congr fun c _ => ?_
    split <;> simp
  have hcount : ∀ (cs : List Char) (parity : Bool),
      countBars false parity (cs.flatMap fun c => if c = '|' then ['\\', '|'] else [c]) =
        countBars true parity cs := by
    intro cs
    induction cs with
    | nil => exact fun parity => rfl
    | cons c rest ih =>
        intro parity
        rw [List.flatMap_cons]
        by_cases hc : c = '|'
        · subst hc
          cases parity <;> simp [countBars, parityAfter, ih]
        · simp [countBars, hc, ih]
  rw [openBars, escapedBars, bars_eq, bars_eq, hcell, hcount]

end WebBaseline.Text
