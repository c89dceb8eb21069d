import WebBaseline.Decimal.Binary64

/-!
# The shortest decimal that reads back

Of all decimals that round to a number, `Binary64.shortest` takes one with the
fewest digits, and of those the nearest.  On each grid of powers of ten, from
coarse to fine, only the two neighbours of the number have to be tried.
-/

namespace WebBaseline

/-- The decimal `digits · 10 ^ exponent`. -/
structure Decimal where
  digits : Nat
  exponent : Int
deriving BEq, DecidableEq, Repr, Inhabited

namespace Binary64

/-- The interval of the fractions that round to a number: four times its lower
end, the number and its upper end, over one denominator, and whether the ends
belong to it. -/
structure Interval where
  low : Nat
  middle : Nat
  high : Nat
  den : Nat
  closed : Bool

/-- The interval of a number.  Below a power of two the numbers are closer. -/
def interval (x : Binary64) : Interval :=
  let m := x.significand
  let gap := if 2 * m = significandBound ∧ leastExponent < x.exponent then 1 else 2
  let up (n : Nat) : Nat := if 0 ≤ x.exponent then n * Nat.pow 2 x.exponent.toNat else n
  { low := up (4 * m - gap)
    middle := up (4 * m)
    high := up (4 * m + 2)
    den := if 0 ≤ x.exponent then 4 else 4 * Nat.pow 2 (-x.exponent).toNat
    closed := m % 2 = 0 }

/-- Whether `n` units of a grid lie in the interval; the unit is `num / den`. -/
def Interval.contains (i : Interval) (n num : Nat) (den : Nat) : Bool :=
  let value := n * num * i.den
  let low := i.low * den
  let high := i.high * den
  if i.closed then low ≤ value && value ≤ high else low < value && value < high

/-- The point of a grid in the interval that is nearest to the number. -/
def Interval.nearest? (i : Interval) (num den : Nat) : Option Nat :=
  let unit := num * i.den
  let below := i.middle * den / unit
  let above := below + 1
  match i.contains below num den, i.contains above num den with
  | true, true =>
    let fromBelow := i.middle * den - below * unit
    let fromAbove := above * unit - i.middle * den
    if fromBelow < fromAbove then some below
    else if fromAbove < fromBelow then some above
    else if below % 2 = 0 then some below else some above
  | true, false => some below
  | false, true => some above
  | false, false => none

/-- Try ever finer grids, starting with that of the given exponent. -/
def Interval.search (i : Interval) : Nat → Int → Option Decimal
  | 0, _ => none
  | fuel + 1, e =>
    let num := if 0 ≤ e then Nat.pow 10 e.toNat else 1
    let den := if 0 ≤ e then 1 else Nat.pow 10 (-e).toNat
    match i.nearest? num den with
    | some n => if n = 0 then i.search fuel (e - 1) else some { digits := n, exponent := e }
    | none => i.search fuel (e - 1)

/-- The number of decimal digits before the point. -/
def integerDigits (num den : Nat) : Nat := (Nat.toDigits 10 (num / den)).length

/-- Where the search for a number starts: no grid point of a coarser grid can be meant. -/
def searchStart (x : Binary64) : Int :=
  let (num, den) := x.toFraction
  if den ≤ num then integerDigits num den
  else -((Nat.toDigits 10 (den / num)).length : Int) + 1

/-- Drop trailing zeros. -/
def stripZeros : Nat → Nat → Int → Decimal
  | 0, n, e => ⟨n, e⟩
  | fuel + 1, n, e => if n ≠ 0 ∧ n % 10 = 0 then stripZeros fuel (n / 10) (e + 1) else ⟨n, e⟩

/-- The shortest decimal that rounds to the size of the number. -/
def shortest (x : Binary64) : Decimal :=
  if x.significand = 0 then ⟨0, 0⟩
  else
    match x.interval.search 20 x.searchStart with
    | some d => stripZeros 400 d.digits d.exponent
    | none => ⟨0, 0⟩

end Binary64

namespace Decimal

/-- The digits of a natural number as text. -/
def digitText (n : Nat) : String := String.ofList (Nat.toDigits 10 n)

/-- A run of zeros. -/
def zeros (n : Nat) : String := String.ofList (List.replicate n '0')

/-- Positional notation, with at least one digit after the point. -/
def positional (d : Decimal) : String :=
  let text := digitText d.digits
  let length : Int := text.length
  if 0 ≤ d.exponent then text ++ zeros d.exponent.toNat ++ ".0"
  else
    let point := length + d.exponent
    if 0 < point then
      String.ofList (text.toList.take point.toNat) ++ "." ++
        String.ofList (text.toList.drop point.toNat)
    else "0." ++ zeros (-point).toNat ++ text

/-- One digit before the point, and the exponent with its sign. -/
def scientific (d : Decimal) : String :=
  let text := (digitText d.digits).toList
  let exponent : Int := d.exponent + text.length - 1
  let mantissa := match text with
    | [] => ""
    | [c] => String.singleton c
    | c :: rest => String.ofList (c :: '.' :: rest)
  let sign := if exponent < 0 then "-" else "+"
  mantissa ++ "e" ++ sign ++ digitText exponent.natAbs

/-- The decimal exponent of the first digit. -/
def magnitude (d : Decimal) : Int := d.exponent + (digitText d.digits).length

end Decimal

namespace Binary64

/-- The sign of a number as text. -/
def signText (x : Binary64) : String := if x.negative then "-" else ""

/-- The text of a number in JSON: positional from `0.00001` to below `10 ^ 16`. -/
def jsonText (x : Binary64) : String :=
  let d := x.shortest
  let m := d.magnitude
  x.signText ++
    (if x.isZero then "0.0" else if -5 < m && m ≤ 16 then d.positional else d.scientific)

/-- The text of a number without exponent, however long it is. -/
def plainText (x : Binary64) : String :=
  x.signText ++ (if x.isZero then "0.0" else x.shortest.positional)

end Binary64

end WebBaseline
