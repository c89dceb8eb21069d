import WebBaseline.Json.Printer
import WebBaseline.Json.Reader

/-!
# Reading back texts and numbers

What is written for a text or an integer is read back, whatever follows it in a
value that was written.

* `quoted_escape`, `quoted_escapedChars` — one character, and a whole text;
* `integerDigits_append`, `number_toDigits` — the digits of an integer.
-/

namespace WebBaseline.Json

open Reader

/-! ### Texts -/

/-- The characters that are written for a text between its quotes. -/
def escapedChars (cs : List Char) : List Char := cs.flatMap fun c => (escape c).toList

/-- A text in quotes. -/
theorem toList_quote (s : String) :
    (quote s).toList = '\"' :: (escapedChars s.toList ++ ['\"']) := by
  rw [quote, String.toList_append, String.toList_append, String.toList_join, List.flatMap_map]
  rfl

/-- The digits of base sixteen are read back. -/
theorem hexValue?_hexDigit {n : Nat} (h : n < 16) : hexValue? (hexDigit n) = some n := by
  have hall : ∀ n < 16, hexValue? (hexDigit n) = some n := by decide
  exact hall n h

/-- A character that is written by its number is read back. -/
theorem escapedUnit_hexDigits {c : Char} (h : c.toNat < 32) (rest : List Char) :
    escapedUnit true ('0' :: '0' :: hexDigit (c.toNat / 16) :: hexDigit (c.toNat % 16) :: rest) =
      .ok (c, rest) := by
  have hunit : codeUnit
      ('0' :: '0' :: hexDigit (c.toNat / 16) :: hexDigit (c.toNat % 16) :: rest) =
        .ok (c.toNat, rest) := by
    have hzero : hexValue? '0' = some 0 := by decide
    have hvalue : c.toNat / 16 * 16 + c.toNat % 16 = c.toNat := by omega
    simp [codeUnit, hzero, hexValue?_hexDigit (show c.toNat / 16 < 16 by omega),
      hexValue?_hexDigit (show c.toNat % 16 < 16 by omega), hvalue]
  have hlow : ¬ 0xDC00 ≤ c.toNat := by omega
  have hplain : c.toNat < 0xD800 := by omega
  simp [escapedUnit, hunit, hlow, hplain, Char.ofNat_toNat]

/-- **One character.**  It is read back from what is written for it. -/
theorem quoted_escape (c : Char) (fuel : Nat) (read rest : List Char) :
    quoted true (fuel + 1) read ((escape c).toList ++ rest) = quoted true fuel (c :: read) rest := by
  have hnamed : ∀ {n : Nat}, c.toNat = n → Char.ofNat n = c := by
    rintro n rfl
    exact Char.ofNat_toNat c
  unfold escape
  by_cases hquote : c = '\"'
  · subst hquote
    rfl
  by_cases hbackslash : c = '\\'
  · subst hbackslash
    rfl
  rw [if_neg hquote, if_neg hbackslash]
  by_cases hnewline : c = '\n'
  · subst hnewline
    rfl
  by_cases hreturn : c = '\r'
  · subst hreturn
    rfl
  by_cases htab : c = '\t'
  · subst htab
    rfl
  rw [if_neg hnewline, if_neg hreturn, if_neg htab]
  by_cases hback : c.toNat = 8
  · rw [if_pos hback, ← hnamed hback]
    rfl
  by_cases hfeed : c.toNat = 12
  · rw [if_neg hback, if_pos hfeed, ← hnamed hfeed]
    rfl
  rw [if_neg hback, if_neg hfeed]
  by_cases hcontrol : c.toNat < 32
  · rw [if_pos hcontrol]
    simp [quoted, escaped, escapedUnit_hexDigits hcontrol rest]
  · rw [if_neg hcontrol, String.toList_singleton, List.singleton_append, quoted, if_neg hcontrol]
    · exact hquote
    · exact hbackslash

/-- What is written for a text is no shorter than the text. -/
theorem length_le_escapedChars (cs : List Char) : cs.length ≤ (escapedChars cs).length := by
  induction cs with
  | nil => exact Nat.le_refl 0
  | cons c rest ih =>
      have hpos : 0 < (escape c).toList.length := by
        unfold escape
        repeat' split
        all_goals simp
      rw [escapedChars, List.flatMap_cons, List.length_append, List.length_cons]
      unfold escapedChars at ih
      omega

/-- **A text.**  It is read back up to the closing quote. -/
theorem quoted_escapedChars (cs read rest : List Char) {fuel : Nat} (hfuel : cs.length < fuel) :
    quoted true fuel read (escapedChars cs ++ '\"' :: rest) =
      .ok (String.ofList (read.reverse ++ cs), rest) := by
  induction cs generalizing read fuel with
  | nil =>
      obtain ⟨fuel, rfl⟩ : ∃ n, fuel = n + 1 := ⟨fuel - 1, by simp at hfuel; omega⟩
      rw [List.append_nil]
      rfl
  | cons c cs ih =>
      obtain ⟨fuel, rfl⟩ : ∃ n, fuel = n + 1 := ⟨fuel - 1, by simp at hfuel; omega⟩
      rw [List.length_cons] at hfuel
      rw [escapedChars, List.flatMap_cons, List.append_assoc, quoted_escape]
      have hnext := ih (c :: read) (Nat.lt_of_succ_lt_succ hfuel)
      simpa [escapedChars] using hnext

/-! ### Integers -/

/-- The characters that may come right after a value. -/
def closing : List Char := [' ', '\n', '\t', '\r', ',', ']', '\x7d']

/-- Whether a text may follow a value: it ends there, or goes on with a blank, a comma or a
closing bracket. -/
def Closes (rest : List Char) : Prop := ∀ c ∈ rest.head?, c ∈ closing

/-- Nothing has to follow a value. -/
theorem closes_nil : Closes [] := fun c hc => by cases hc

/-- What starts with such a character may follow a value. -/
theorem closes_cons {c : Char} (hc : c ∈ closing) (rest : List Char) : Closes (c :: rest) := by
  intro d hd
  obtain rfl : c = d := Option.some.inj hd
  exact hc

/-- What may follow a value is no digit. -/
theorem Closes.not_isDigit {c : Char} {rest : List Char} (h : Closes (c :: rest)) :
    c.isDigit = false := by
  have hall : ∀ d ∈ closing, d.isDigit = false := by simp [closing]
  exact hall c (h c rfl)

/-- Further digits make a number no smaller. -/
theorem le_ofDigitChars (digits : List Char) (value : Nat) :
    value ≤ Nat.ofDigitChars 10 digits value := by
  rw [Nat.ofDigitChars_eq_ofDigitChars_zero]
  have hpow : 0 < 10 ^ digits.length := Nat.pow_pos (by decide)
  have hmul : value ≤ 10 ^ digits.length * value := Nat.le_mul_of_pos_left value hpow
  omega

/-- The digits of an integer that is exact are read up to their end. -/
theorem integerDigits_append (negative : Bool) {digits rest : List Char} {value : Nat}
    (hdigits : ∀ c ∈ digits, c.isDigit = true)
    (hexact : Nat.ofDigitChars 10 digits value ≤ greatestExact) (hrest : Closes rest) :
    integerDigits true negative value (digits ++ rest) =
      afterInteger true negative (Nat.ofDigitChars 10 digits value) rest := by
  induction digits generalizing value with
  | nil =>
      rw [List.nil_append, Nat.ofDigitChars_nil]
      cases rest with
      | nil => rfl
      | cons c rest =>
          rw [integerDigits, hrest.not_isDigit]
          rfl
  | cons c digits ih =>
      have hc : c.isDigit = true := hdigits c List.mem_cons_self
      have hnext : value * 10 + (c.toNat - 48) = 10 * value + (c.toNat - '0'.toNat) := by
        rw [Nat.mul_comm]
        rfl
      rw [Nat.ofDigitChars_cons] at hexact ⊢
      have hle := le_ofDigitChars digits (10 * value + (c.toNat - '0'.toNat))
      have hbound : ¬ greatestExact < 10 * value + (c.toNat - '0'.toNat) := by omega
      rw [List.cons_append, integerDigits, if_pos hc]
      simp only [hnext, hbound, if_false]
      exact ih (fun d hd => hdigits d (List.mem_cons_of_mem c hd)) hexact

/-- Only zero starts with the digit zero. -/
theorem toDigits_head_ne_zero {n : Nat} (hn : 0 < n) :
    ∃ c digits, Nat.toDigits 10 n = c :: digits ∧ c ≠ '0' := by
  induction n using Nat.strongRecOn with
  | ind n ih =>
      rcases Nat.lt_or_ge n 10 with hlt | hge
      · refine ⟨n.digitChar, [], Nat.toDigits_of_lt_base hlt, ?_⟩
        have hall : ∀ m < 10, 0 < m → m.digitChar ≠ '0' := by decide
        exact hall n hlt hn
      · obtain ⟨c, digits, hdigits, hc⟩ := ih (n / 10) (by omega) (by omega)
        refine ⟨c, digits ++ [(n % 10).digitChar], ?_, hc⟩
        rw [Nat.toDigits_of_base_le (by decide) hge, hdigits, List.cons_append]

/-- **An integer.**  Its digits are read up to their end. -/
theorem number_toDigits (negative : Bool) {n : Nat} (hn : n ≤ greatestExact) {rest : List Char}
    (hrest : Closes rest) :
    number true negative (Nat.toDigits 10 n ++ rest) = afterInteger true negative n rest := by
  rcases Nat.eq_zero_or_pos n with rfl | hpos
  · rw [Nat.toDigits_zero, List.singleton_append]
    cases rest with
    | nil => rfl
    | cons c rest =>
        rw [number, hrest.not_isDigit]
        rfl
  · obtain ⟨c, digits, hdigits, hc⟩ := toDigits_head_ne_zero hpos
    have hisDigit : ∀ d ∈ c :: digits, d.isDigit = true :=
      fun d hd => Nat.isDigit_of_mem_toDigits (by decide) (by decide) (hdigits ▸ hd)
    have hvalue : Nat.ofDigitChars 10 digits (c.toNat - 48) = n := by
      have hall := Nat.ofDigitChars_ten_toDigits (n := n)
      rwa [hdigits, Nat.ofDigitChars_cons, Nat.mul_zero, Nat.zero_add] at hall
    rw [hdigits, List.cons_append, number]
    · rw [if_pos (hisDigit c List.mem_cons_self),
        integerDigits_append negative (fun d hd => hisDigit d (List.mem_cons_of_mem c hd))
          (hvalue.symm ▸ hn) hrest, hvalue]
    · exact hc

/-- Nothing that may follow a value continues an integer. -/
theorem afterInteger_closes (negative : Bool) (n : Nat) {rest : List Char} (hrest : Closes rest) :
    afterInteger true negative n rest =
      if !negative then .ok (.integer n, rest)
      else if n = 0 || Bound.signed64 < n then fromParts true true n 0 rest
      else .ok (.integer (-n), rest) := by
  cases rest with
  | nil => rfl
  | cons c rest =>
      have hc : c ∈ closing := hrest c rfl
      simp only [closing, List.mem_cons, List.not_mem_nil, or_false] at hc
      rcases hc with rfl | rfl | rfl | rfl | rfl | rfl | rfl <;> rfl

end WebBaseline.Json
