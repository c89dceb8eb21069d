import WebBaseline.Decimal.Shortest

/-!
# Decimals as they are written

A decimal is written as digits, with a point among them or at one end, and with
an exponent after an `e`.  `Decimal.toBinary64` is the binary number nearest to
a decimal.
-/

namespace WebBaseline.Decimal

/-- The sign in front of digits: whether it is a minus, and what comes after it. -/
def takeSign : List Char → Bool × List Char
  | '-' :: rest => (true, rest)
  | '+' :: rest => (false, rest)
  | cs => (false, cs)

/-- The value of digits. -/
def digitsValue (cs : List Char) : Nat := cs.foldl (fun n c => 10 * n + (c.toNat - 48)) 0

/-- The exponent that ends a decimal; nothing stands for zero. -/
def exponent? : List Char → Option Int
  | [] => some 0
  | c :: rest =>
    let (down, digits) := takeSign rest
    if (c = 'e' || c = 'E') && !digits.isEmpty && digits.all Char.isDigit then
      let value : Int := digitsValue digits
      some (if down then -value else value)
    else none

/-- The decimal that some characters write, without a sign. -/
def ofChars? (cs : List Char) : Option Decimal :=
  let whole := cs.takeWhile Char.isDigit
  let (fraction, rest) := match cs.dropWhile Char.isDigit with
    | '.' :: rest => (rest.takeWhile Char.isDigit, rest.dropWhile Char.isDigit)
    | rest => ([], rest)
  if whole.isEmpty && fraction.isEmpty then none
  else (exponent? rest).map fun e => ⟨digitsValue (whole ++ fraction), e - fraction.length⟩

/-- The binary number nearest to a decimal; none if it is too large. -/
def toBinary64 (d : Decimal) : Option Binary64 :=
  if d.digits = 0 || d.magnitude < -400 then some .zero
  else if 400 < d.magnitude then none
  else if 0 ≤ d.exponent then Binary64.ofFraction (d.digits * Nat.pow 10 d.exponent.toNat) 1
  else Binary64.ofFraction d.digits (Nat.pow 10 (-d.exponent).toNat)

end WebBaseline.Decimal
