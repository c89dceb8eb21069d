import WebBaseline.Catalog.Duration

/-!
# Spans in nanoseconds

A span of time is two numbers, but there is one number that it stands for, its
nanoseconds.  What is computed with seconds and a carry is said here of that
number, so that nothing else has to look at the two.

* `Duration.toNanos_inj`, `Duration.le_iff` — spans are equal and ordered as their nanoseconds;
* `Duration.checkedMul_eq_some_iff` — a span several times, where that is a span;
* `Duration.toNanos_saturatingMul` — a span several times, cut off at the longest span.
-/

namespace WebBaseline.Catalog.Duration

/-- The nanoseconds of a span. -/
def toNanos (d : Duration) : Nat := d.secs * nanosPerSecond + d.nanos

/-- Spans are compared second by second, and within the same second by nanoseconds. -/
instance : LE Duration where
  le d e := d.secs < e.secs ∨ (d.secs = e.secs ∧ d.nanos ≤ e.nanos)

variable {d e : Duration} {factor : Nat}

/-- A span is not more than a shorter one exactly if its nanoseconds are not. -/
theorem le_iff : d ≤ e ↔ d.toNanos ≤ e.toNanos := by
  have hd := d.nanos_lt
  have he := e.nanos_lt
  change (d.secs < e.secs ∨ (d.secs = e.secs ∧ d.nanos ≤ e.nanos)) ↔ _
  unfold toNanos nanosPerSecond at *
  omega

/-- A span is determined by its nanoseconds. -/
theorem toNanos_inj : d.toNanos = e.toNanos ↔ d = e := by
  refine ⟨fun h => ?_, fun h => h ▸ rfl⟩
  have hd := d.nanos_lt
  have he := e.nanos_lt
  unfold toNanos nanosPerSecond at *
  exact Duration.ext (by omega) (by omega)

/-- Not being longer than the longest span is a matter of the whole seconds. -/
theorem le_longest_iff {nanos : Nat} :
    nanos ≤ longest.toNanos ↔ nanos / nanosPerSecond < Bound.unsigned64 := by
  simp only [toNanos, longest, nanosPerSecond, Bound.unsigned64]
  omega

/-- There is no longer span than the longest. -/
theorem toNanos_le_longest (d : Duration) : d.toNanos ≤ longest.toNanos := by
  have hd := d.nanos_lt
  rw [le_longest_iff, toNanos, Nat.add_comm, Nat.add_mul_div_right _ _ (by decide),
    Nat.div_eq_of_lt hd, Nat.zero_add]
  exact d.secs_lt

/-- A millisecond has a million nanoseconds. -/
theorem toNanos_ofMillis (ms : UInt64) : (ofMillis ms).toNanos = ms.toNat * 1000000 := by
  simp only [toNanos, ofMillis, nanosPerSecond]
  omega

/-- The carry of a product is what its nanoseconds have of whole seconds. -/
theorem carry_eq : d.secs * factor + d.nanos * factor / nanosPerSecond =
    d.toNanos * factor / nanosPerSecond := by
  rw [toNanos, Nat.add_mul, Nat.mul_right_comm, Nat.add_comm (d.secs * factor * nanosPerSecond),
    Nat.add_mul_div_right _ _ (by decide), Nat.add_comm]

/-- The nanoseconds of a product are what it has beside whole seconds. -/
theorem remainder_eq :
    d.nanos * factor % nanosPerSecond = d.toNanos * factor % nanosPerSecond := by
  rw [toNanos, Nat.add_mul, Nat.mul_right_comm, Nat.mul_add_mod_self_right]

/-- **A product is exact.**  A span several times is the span of the product of its nanoseconds, if
there is one. -/
theorem checkedMul_eq_some_iff :
    d.checkedMul factor = some e ↔ e.toNanos = d.toNanos * factor := by
  have hparts := Nat.div_add_mod' (d.toNanos * factor) nanosPerSecond
  unfold checkedMul
  simp only [carry_eq, remainder_eq]
  split
  next fits =>
    rw [Option.some.injEq, ← toNanos_inj, eq_comm]
    exact Iff.of_eq (congrArg _ hparts)
  next hlong =>
    refine ⟨nofun, fun h => absurd ?_ hlong⟩
    rw [← h, ← le_longest_iff]
    exact toNanos_le_longest e

/-- There is no product if it is longer than the longest span. -/
theorem checkedMul_eq_none_iff :
    d.checkedMul factor = none ↔ longest.toNanos < d.toNanos * factor := by
  rw [← Nat.not_le, le_longest_iff, ← carry_eq]
  unfold checkedMul
  simp only
  split
  next fits => exact ⟨nofun, fun h => absurd fits h⟩
  next hlong => exact ⟨fun _ => hlong, fun _ => rfl⟩

/-- **Saturation.**  A span several times has as many nanoseconds as the product, cut off at those
of the longest span. -/
theorem toNanos_saturatingMul (d : Duration) (factor : Nat) :
    (d.saturatingMul factor).toNanos = min (d.toNanos * factor) longest.toNanos := by
  unfold saturatingMul
  cases h : d.checkedMul factor with
  | some e =>
      have he := checkedMul_eq_some_iff.mp h
      rw [Option.getD_some, ← he, Nat.min_eq_left (toNanos_le_longest e)]
  | none =>
      have hlong := checkedMul_eq_none_iff.mp h
      rw [Option.getD_none, Nat.min_eq_right (Nat.le_of_lt hlong)]

end WebBaseline.Catalog.Duration
