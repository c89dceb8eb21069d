import WebBaseline.Decimal.Bound

/-!
# Binary floating-point numbers

Finite numbers of the 64-bit binary format, as a sign, a significand and an
exponent.  Arithmetic is exact on fractions of natural numbers and then rounds
once: to the nearest number, and to the one with an even significand from the
middle between two.
-/

namespace WebBaseline

/-- The number `± significand · 2 ^ exponent`.  Numbers that `Binary64.ofFraction`
makes have a significand of 53 bits, or of fewer at the least exponent. -/
structure Binary64 where
  negative : Bool := false
  significand : Nat
  exponent : Int
deriving BEq, DecidableEq, Repr, Inhabited

namespace Binary64

/-- Significands stay below this bound. -/
def significandBound : Nat := 0x20000000000000

/-- The least exponent. -/
def leastExponent : Int := -1074

/-- The greatest exponent. -/
def greatestExponent : Int := 971

/-- Zero. -/
def zero : Binary64 := { significand := 0, exponent := leastExponent }

/-- The natural number nearest to a fraction, an even one from the middle between two. -/
def roundHalfEven (num den : Nat) : Nat :=
  let q := num / den
  let twice := 2 * (num % den)
  if twice < den then q
  else if den < twice then q + 1
  else if q % 2 = 0 then q else q + 1

/-- A fraction of natural numbers times a power of two, as a fraction. -/
def scaled (num den : Nat) (e : Int) : Nat × Nat :=
  if 0 ≤ e then (num * Nat.pow 2 e.toNat, den) else (num, den * Nat.pow 2 (-e).toNat)

/-- The number nearest to a fraction; none if it is too large. -/
def ofFraction (num den : Nat) : Option Binary64 :=
  if num = 0 then some zero
  else
    let guess : Int := (num.log2 : Int) - (den.log2 : Int) - 53
    let (n, d) := scaled num den (-guess)
    let fitting := if n / d < significandBound then guess else guess + 1
    let exponent := max fitting leastExponent
    let (n, d) := scaled num den (-exponent)
    let m := roundHalfEven n d
    let (m, exponent) := if m = significandBound then (m / 2, exponent + 1) else (m, exponent)
    if greatestExponent < exponent then none
    else some { significand := m, exponent }

/-- The size of a number as a fraction. -/
def toFraction (x : Binary64) : Nat × Nat := scaled x.significand 1 x.exponent

/-- The number nearest to a natural number. -/
def ofNat (n : Nat) : Option Binary64 := ofFraction n 1

/-- The product of two sizes. -/
def mul (x y : Binary64) : Option Binary64 :=
  ofFraction (x.toFraction.1 * y.toFraction.1) (x.toFraction.2 * y.toFraction.2)

/-- The quotient of two sizes. -/
def div (x y : Binary64) : Option Binary64 :=
  ofFraction (x.toFraction.1 * y.toFraction.2) (x.toFraction.2 * y.toFraction.1)

/-- The number with the given sign. -/
def withSign (negative : Bool) (x : Binary64) : Binary64 := { x with negative }

/-- Whether the number is zero, of either sign. -/
def isZero (x : Binary64) : Bool := x.significand == 0

end Binary64

end WebBaseline
