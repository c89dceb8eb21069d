import WebBaseline.Decimal.Bound

/-!
# Spans of time

A span is a number of whole seconds, which fits into 64 bits, and the
nanoseconds of the second that has begun.  What is longer than the longest span
counts as that.
-/

namespace WebBaseline.Catalog

/-- The nanoseconds of a second. -/
def nanosPerSecond : Nat := 1000000000

/-- A span of time. -/
@[ext]
structure Duration where
  secs : Nat
  nanos : Nat
  secs_lt : secs < Bound.unsigned64
  nanos_lt : nanos < nanosPerSecond
deriving DecidableEq, Repr

namespace Duration

/-- The longest span. -/
def longest : Duration where
  secs := Bound.unsigned64 - 1
  nanos := nanosPerSecond - 1
  secs_lt := by decide
  nanos_lt := by decide

/-- A number of milliseconds. -/
def ofMillis (ms : UInt64) : Duration where
  secs := ms.toNat / 1000
  nanos := ms.toNat % 1000 * 1000000
  secs_lt := Nat.lt_of_le_of_lt (Nat.div_le_self _ _) ms.toNat_lt
  nanos_lt := by
    unfold nanosPerSecond
    omega

/-- A span several times, unless that is too long.  Whole seconds among the
nanoseconds are carried over. -/
def checkedMul (d : Duration) (factor : Nat) : Option Duration :=
  let nanos := d.nanos * factor
  let secs := d.secs * factor + nanos / nanosPerSecond
  if fits : secs < Bound.unsigned64 then
    some ⟨secs, nanos % nanosPerSecond, fits, Nat.mod_lt nanos (by decide)⟩
  else none

/-- A span several times, or the longest span if that is too long. -/
def saturatingMul (d : Duration) (factor : Nat) : Duration :=
  (d.checkedMul factor).getD longest

end Duration

end WebBaseline.Catalog
