import WebBaseline.Proofs.Scan.ResultInvariant

/-!
# Counts in words

Sums and products of words are those of the numbers they stand for as long as these
fit into words.  The score has a sum and a product that need not fit together: the
dividend may although the divisor, twice the number of issues, does not.

* `toNat_percentageInWords` — where words give the exact percentage;
* `WordCounts.toCounts_ofIssues` — words count all lists that are not longer than they can tell;
* `Counts.FitsWords` — the two bounds that the score asks for;
* `WordCounts.score_of_fits` — the score in words is then the exact one;
* `WordCounts.score_eq_none_iff` — the one number of issues that there is no score of.
-/

namespace WebBaseline

/-! ### Percentages -/

section Words

variable {part total : UInt64}

theorem toNat_dividend (hdividend : 200 * part.toNat + total.toNat < UInt64.size) :
    (200 * part + total).toNat = 200 * part.toNat + total.toNat := by
  have hscaled : (200 * part).toNat = 200 * part.toNat := by
    rw [UInt64.toNat_mul]
    exact Nat.mod_eq_of_lt (Nat.lt_of_le_of_lt (Nat.le_add_right _ total.toNat) hdividend)
  rw [UInt64.toNat_add, hscaled]
  exact Nat.mod_eq_of_lt hdividend

theorem toNat_divisor (hdivisor : 2 * total.toNat < UInt64.size) :
    (2 * total).toNat = 2 * total.toNat := by
  rw [UInt64.toNat_mul]
  exact Nat.mod_eq_of_lt hdivisor

/-- The quotient is the percentage before it is cut off at the whole and kept in a byte. -/
theorem toNat_quotient (hpart : part.toNat ≤ total.toNat) (htotal : 0 < total.toNat)
    (hdividend : 200 * part.toNat + total.toNat < UInt64.size)
    (hdivisor : 2 * total.toNat < UInt64.size) :
    ((200 * part + total) / (2 * total)).toNat = percentage part.toNat total.toNat := by
  rw [UInt64.toNat_div, toNat_dividend hdividend, toNat_divisor hdivisor,
    percentage_eq_div hpart htotal]

/-- Words give the percentage as long as the dividend and the divisor fit into them. -/
theorem toNat_percentageInWords (hpart : part.toNat ≤ total.toNat)
    (hdividend : 200 * part.toNat + total.toNat < UInt64.size)
    (hdivisor : 2 * total.toNat < UInt64.size) :
    (percentageInWords part total).toNat = percentage part.toNat total.toNat := by
  unfold percentageInWords
  by_cases hzero : total = 0
  · rw [if_pos hzero, hzero]
    rfl
  · have htotal : 0 < total.toNat :=
      Nat.pos_of_ne_zero fun hnat => hzero (UInt64.toNat_inj.mp hnat)
    have hquotient := toNat_quotient hpart htotal hdividend hdivisor
    have hbound := percentage_le_hundred part.toNat total.toNat
    rw [if_neg hzero]
    dsimp only
    rw [if_pos (UInt64.le_iff_toNat_le.mpr (hquotient ▸ hbound)), UInt64.toNat_toUInt8, hquotient]
    exact Nat.mod_eq_of_lt (by omega)

/-- The same of numbers that are brought into words. -/
theorem toNat_percentageInWords_ofNat {part total : Nat} (hpart : part ≤ total)
    (hdividend : 200 * part + total < UInt64.size) (hdivisor : 2 * total < UInt64.size) :
    (percentageInWords (.ofNat part) (.ofNat total)).toNat = percentage part total := by
  have htotal : (UInt64.ofNat total).toNat = total := UInt64.toNat_ofNat_of_lt' (by omega)
  have hpart' : (UInt64.ofNat part).toNat = part := UInt64.toNat_ofNat_of_lt' (by omega)
  have hwords := @toNat_percentageInWords (.ofNat part) (.ofNat total)
  rw [hpart', htotal] at hwords
  exact hwords hpart hdividend hdivisor

end Words

/-! ### Counting -/

namespace Counts

@[simp] theorem total_record (c : Counts) (s : Status) : (c.record s).total = c.total + 1 := by
  cases s <;> simp only [record, total] <;> omega

/-- The dividend and the divisor of the score fit into words of 64 bits. -/
structure FitsWords (c : Counts) : Prop where
  dividend : 200 * c.acceptable + c.total < UInt64.size
  divisor : 2 * c.total < UInt64.size

/-- Smaller counts fit too. -/
theorem FitsWords.of_le {c d : Counts} (hfits : d.FitsWords)
    (hacceptable : c.acceptable ≤ d.acceptable) (htotal : c.total ≤ d.total) : c.FitsWords := by
  obtain ⟨hdividend, hdivisor⟩ := hfits
  exact ⟨by omega, by omega⟩

end Counts

namespace WordCounts

variable {w : WordCounts}

/-- The sum of words that have room for it. -/
theorem toNat_total (hfits : w.toCounts.total < UInt64.size) :
    w.total.toNat = w.toCounts.total := by
  simp only [Counts.total, toCounts, UInt64.size] at hfits
  simp only [total, Counts.total, toCounts, UInt64.toNat_add]
  omega

theorem toNat_acceptable (hfits : w.toCounts.total < UInt64.size) :
    w.acceptable.toNat = w.toCounts.acceptable := by
  simp only [Counts.total, toCounts, UInt64.size] at hfits
  simp only [acceptable, Counts.acceptable, toCounts, UInt64.toNat_add]
  omega

/-- One more issue, as long as there is room for it. -/
theorem toCounts_record (hfits : w.toCounts.total + 1 < UInt64.size) (s : Status) :
    (w.record s).toCounts = w.toCounts.record s := by
  have hnext : ∀ word : UInt64, word.toNat ≤ w.toCounts.total →
      (word + 1).toNat = word.toNat + 1 := by
    intro word hword
    rw [UInt64.toNat_add]
    exact Nat.mod_eq_of_lt (Nat.lt_of_le_of_lt (Nat.succ_le_succ hword) hfits)
  cases s <;> simp only [record, toCounts, Counts.record] <;> rw [hnext]
  all_goals
    simp only [Counts.total, toCounts]
    omega

/-- Issues counted one after the other, on top of what was counted before. -/
theorem toCounts_foldl_record (issues : List Issue) :
    ∀ w : WordCounts, w.toCounts.total + issues.length < UInt64.size →
      (issues.foldl (fun w i => w.record i.status) w).toCounts =
        issues.foldl (fun c i => c.record i.status) w.toCounts := by
  induction issues with
  | nil => exact fun _ _ => rfl
  | cons i rest ih =>
      intro w hfits
      rw [List.length_cons] at hfits
      have hrecord := toCounts_record (w := w) (by omega) i.status
      have hrest : (w.record i.status).toCounts.total + rest.length < UInt64.size := by
        rw [hrecord, Counts.total_record]
        omega
      rw [List.foldl_cons, List.foldl_cons, ih _ hrest, hrecord]

theorem toCounts_ofIssues {issues : List Issue} (hfits : issues.length < UInt64.size) :
    (ofIssues issues).toCounts = Counts.ofIssues issues :=
  toCounts_foldl_record issues {} ((Nat.zero_add _).trans_lt hfits)

/-! ### Scores -/

/-- Twice a number is zero in words for just one number but zero. -/
theorem double_eq_zero_iff {word : UInt64} :
    word ≠ 0 ∧ 2 * word = 0 ↔ word.toNat = 0x8000000000000000 := by
  have hlt := word.toNat_lt
  rw [ne_eq, ← UInt64.toNat_inj, ← UInt64.toNat_inj, UInt64.toNat_mul]
  change ¬ word.toNat = 0 ∧ 2 * word.toNat % 2 ^ 64 = 0 ↔ _
  omega

/-- Half as many issues as words can tell apart have no score, and all other counts have one. -/
theorem score_eq_none_iff : w.score = none ↔ w.total.toNat = 0x8000000000000000 := by
  rw [← double_eq_zero_iff, score]
  split
  case isTrue hdouble => exact iff_of_true rfl hdouble
  case isFalse hdouble => exact iff_of_false (Option.some_ne_none _) hdouble

/-- No issues have the full score. -/
theorem score_of_total_eq_zero (hnone : w.toCounts.total = 0) : w.score = some 100 := by
  have hnat : w.total.toNat = 0 := (toNat_total (hnone ▸ by decide)).trans hnone
  have hzero : w.total = 0 := UInt64.toNat_inj.mp hnat
  rw [score, if_neg fun hdouble => hdouble.1 hzero, percentageInWords, if_pos hzero]

section Fits

variable (hfits : w.toCounts.FitsWords)
include hfits

theorem toNat_sums_of_fits :
    w.total.toNat = w.toCounts.total ∧ w.acceptable.toNat = w.toCounts.acceptable := by
  have hdivisor := hfits.divisor
  exact ⟨toNat_total (by omega), toNat_acceptable (by omega)⟩

/-- The bounds, of the words that are summed up and multiplied. -/
theorem bounds_of_fits :
    w.acceptable.toNat ≤ w.total.toNat ∧
      200 * w.acceptable.toNat + w.total.toNat < UInt64.size ∧
      2 * w.total.toNat < UInt64.size := by
  obtain ⟨htotal, hacceptable⟩ := toNat_sums_of_fits hfits
  rw [htotal, hacceptable]
  exact ⟨w.toCounts.acceptable_le_total, hfits.dividend, hfits.divisor⟩

/-- The quotient is the score already. -/
theorem toNat_quotient_of_fits (hsome : 0 < w.toCounts.total) :
    ((200 * w.acceptable + w.total) / (2 * w.total)).toNat = w.toCounts.score := by
  obtain ⟨htotal, hacceptable⟩ := toNat_sums_of_fits hfits
  obtain ⟨hpart, hdividend, hdivisor⟩ := bounds_of_fits hfits
  rw [toNat_quotient hpart (htotal ▸ hsome) hdividend hdivisor, hacceptable, htotal, Counts.score]

/-- **The score in words.**  It is the exact one if its dividend and its divisor fit. -/
theorem score_of_fits :
    ∃ score : UInt8, w.score = some score ∧ score.toNat = w.toCounts.score := by
  obtain ⟨htotal, hacceptable⟩ := toNat_sums_of_fits hfits
  obtain ⟨hpart, hdividend, hdivisor⟩ := bounds_of_fits hfits
  refine ⟨percentageInWords w.acceptable w.total, if_neg fun hdouble => ?_, ?_⟩
  · rw [double_eq_zero_iff.mp hdouble] at hdivisor
    exact absurd hdivisor (by decide)
  · rw [toNat_percentageInWords hpart hdividend hdivisor, hacceptable, htotal, Counts.score]

end Fits

end WordCounts

end WebBaseline
