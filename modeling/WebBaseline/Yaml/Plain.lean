import WebBaseline.Decimal.Literal
import WebBaseline.Decoding.Fault
import WebBaseline.Text.Hex

/-!
# What plain scalars stand for

A scalar that is written without quotes stands for nothing, a truth value or a
number if it looks like one, and else for its text.  Digits with needless zeros
in front are a text.
-/

namespace WebBaseline.Yaml.Plain

open Decoding (Found)

/-- Whether a text is a word for nothing. -/
def isNull (text : String) : Bool := ["null", "Null", "NULL", "~"].contains text

/-- The truth value that a text is the word for. -/
def boolean? (text : String) : Option Bool :=
  if ["true", "True", "TRUE"].contains text then some true
  else if ["false", "False", "FALSE"].contains text then some false
  else none

/-- Whether a text is digits with needless zeros in front, perhaps after a sign. -/
def hasNeedlessZeros (text : String) : Bool :=
  let digits := (Decimal.takeSign text.toList).2
  1 < digits.length && digits.head? == some '0' && digits.all Char.isDigit

/-- The value of digits to a base of at most sixteen. -/
def digits? (base : Nat) (cs : List Char) : Option Nat :=
  if cs.isEmpty then none
  else cs.foldl (fun n c => do
    let d ← Text.hexValue? c
    if d < base then some (base * (← n) + d) else none) (some 0)

/-- The size of an integer without its sign: digits to the base of ten, or after `0x`,
`0o` and `0b` to the base of sixteen, eight and two. -/
def magnitude? : List Char → Option Nat
  | '0' :: 'x' :: cs => digits? 16 cs
  | '0' :: 'o' :: cs => digits? 8 cs
  | '0' :: 'b' :: cs => digits? 2 cs
  | cs => digits? 10 cs

/-- The integer that a text is: whether it has a minus, and its size. -/
def integer? (text : String) : Option (Bool × Nat) :=
  if hasNeedlessZeros text then none
  else
    let (negative, cs) := Decimal.takeSign text.toList
    (magnitude? cs).map (negative, ·)

/-- The number with a fraction that a text is, in its usual wording. -/
def double? (text : String) : Option String :=
  if [".inf", ".Inf", ".INF", "+.inf", "+.Inf", "+.INF"].contains text then some "inf"
  else if ["-.inf", "-.Inf", "-.INF"].contains text then some "-inf"
  else if [".nan", ".NaN", ".NAN"].contains text then some "NaN"
  else if hasNeedlessZeros text then none
  else do
    let (negative, cs) := Decimal.takeSign text.toList
    let x ← (← Decimal.ofChars? cs).toBinary64
    some (x.withSign negative).plainText

/-- An integer as what was found, if it has 128 bits at most. -/
def foundInteger? : Bool × Nat → Option Found
  | (false, n) =>
    if n < Bound.unsigned64 then some (.integer n)
    else if n < Bound.unsigned128 then some (.wide n "u128")
    else none
  | (true, n) =>
    if (n : Int) ≤ Bound.signed64 then some (.integer (-n))
    else if (n : Int) ≤ Bound.signed128 then some (.wide (-n) "i128")
    else none

/-- What a plain scalar stands for. -/
def found (text : String) : Found :=
  if text.isEmpty || isNull text then .nothing
  else
    match boolean? text with
    | some b => .bool b
    | none =>
      match (integer? text).bind foundInteger? with
      | some f => f
      | none =>
        match double? text with
        | some d => .double d
        | none => .text text

end WebBaseline.Yaml.Plain
