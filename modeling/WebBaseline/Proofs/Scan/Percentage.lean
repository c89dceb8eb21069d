import Mathlib.Algebra.Order.Round
import Mathlib.Data.Rat.Floor
import WebBaseline.Scan.Result

/-!
# Percentages

A percentage is computed with natural numbers only.  It is the quotient of the
rational numbers, rounded half up.

* `percentage_eq_div` — of a part that does not exceed the whole, the quotient
  needs no bound;
* `percentage_eq_round` — and it is the rounded one.
-/

namespace WebBaseline

/-- Of nothing the percentage is the whole. -/
theorem percentage_zero (part : Nat) : percentage part 0 = 100 := rfl

/-- No percentage exceeds that of the whole. -/
theorem percentage_le_hundred (part total : Nat) : percentage part total ≤ 100 := by
  rw [percentage]
  split
  · exact Nat.le_refl 100
  · exact Nat.min_le_left _ _

/-- A part does not exceed the whole, so that the bound of the percentage never counts. -/
theorem percentage_eq_div {part total : Nat} (hpart : part ≤ total) (htotal : 0 < total) :
    percentage part total = (200 * part + total) / (2 * total) := by
  have hbound : (200 * part + total) / (2 * total) ≤ 100 := by
    have hlt : 200 * part + total < 101 * (2 * total) := by omega
    exact Nat.le_of_lt_succ ((Nat.div_lt_iff_lt_mul (by omega)).mpr hlt)
  rw [percentage, if_neg (by omega), Nat.min_eq_right hbound]

/-- **Half up.**  The percentage is the rounded quotient. -/
theorem percentage_eq_round {part total : Nat} (hpart : part ≤ total) (htotal : 0 < total) :
    (percentage part total : ℤ) = round (100 * part / total : ℚ) := by
  have hne : (total : ℚ) ≠ 0 := by
    exact_mod_cast htotal.ne'
  have hquotient : (100 * part / total : ℚ) + 1 / 2 =
      ((200 * part + total : ℕ) : ℤ) / ((2 * total : ℕ) : ℚ) := by
    push_cast
    field_simp
    ring
  rw [round_eq, hquotient, Rat.floor_intCast_div_natCast, percentage_eq_div hpart htotal]
  exact Int.natCast_ediv _ _

end WebBaseline
