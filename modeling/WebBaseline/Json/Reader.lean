import WebBaseline.Json.Value

/-!
# Reading JSON

The text is read from left to right, and the first fault ends the reading with
its place.  `Json.parse` reads a whole text.  A value whose content does not
matter is read leniently: numbers of any size, lone surrogates and any depth
are then accepted.
-/

namespace WebBaseline.Json

/-- Why a text is no JSON. -/
inductive SyntaxFault where
  | endInList
  | endInObject
  | endInText
  | endInValue
  | expectedColon
  | expectedListComma
  | expectedObjectComma
  | expectedIdentifier
  | expectedValue
  | invalidEscape
  | invalidNumber
  | numberOutOfRange
  | controlCharacter
  | keyMustBeText
  | loneSurrogate
  | trailingComma
  | trailingCharacters
  | unexpectedEndOfEscape
  | tooDeep
deriving DecidableEq, Repr

/-- The wording of a fault. -/
def SyntaxFault.message : SyntaxFault → String
  | endInList => "EOF while parsing a list"
  | endInObject => "EOF while parsing an object"
  | endInText => "EOF while parsing a string"
  | endInValue => "EOF while parsing a value"
  | expectedColon => "expected `:`"
  | expectedListComma => "expected `,` or `]`"
  | expectedObjectComma => "expected `,` or `\x7d`"
  | expectedIdentifier => "expected ident"
  | expectedValue => "expected value"
  | invalidEscape => "invalid escape"
  | invalidNumber => "invalid number"
  | numberOutOfRange => "number out of range"
  | controlCharacter => "control character (\\u0000-\\u001F) found while parsing a string"
  | keyMustBeText => "key must be a string"
  | loneSurrogate => "lone leading surrogate in hex escape"
  | trailingComma => "trailing comma"
  | trailingCharacters => "trailing characters"
  | unexpectedEndOfEscape => "unexpected end of hex escape"
  | tooDeep => "recursion limit exceeded"

/-- A place in a text: its line, from one, and how many bytes of the line come before it. -/
structure Place where
  line : Nat
  column : Nat
deriving DecidableEq, Repr

/-- The place after the given number of bytes. -/
def Place.after (bytes : Nat) (text : List Char) : Place :=
  let rec go (left line column : Nat) : List Char → Place
    | [] => ⟨line, column⟩
    | c :: rest =>
      if left = 0 then ⟨line, column⟩
      else if left < c.utf8Size then ⟨line, column + left⟩
      else if c = '\n' then go (left - 1) (line + 1) 0 rest
      else go (left - c.utf8Size) line (column + c.utf8Size) rest
  go bytes 1 0 text

/-- The wording of a place. -/
def Place.message (p : Place) : String :=
  "at line " ++ toString p.line ++ " column " ++ toString p.column

/-- A fault with its place. -/
structure SyntaxError where
  fault : SyntaxFault
  place : Place
deriving DecidableEq, Repr

/-- The wording of a fault with its place. -/
def SyntaxError.message (e : SyntaxError) : String :=
  e.fault.message ++ " " ++ e.place.message

namespace Reader

/-- The number of bytes of a text. -/
def byteCount (cs : List Char) : Nat := cs.foldl (fun n c => n + c.utf8Size) 0

/-- A fault, with the number of bytes that come after its place. -/
structure Stop where
  fault : SyntaxFault
  bytesAfter : Nat

/-- The outcome of reading something, with the rest of the text. -/
abbrev Outcome (α : Type) := Except Stop (α × List Char)

/-- A fault before the rest of the text. -/
def failAt {α : Type} (fault : SyntaxFault) (rest : List Char) : Except Stop α :=
  .error ⟨fault, byteCount rest⟩

/-- A fault at the first byte of the rest of the text. -/
def failOn {α : Type} (fault : SyntaxFault) (rest : List Char) : Except Stop α :=
  .error ⟨fault, byteCount rest - 1⟩

/-- Whether a character may stand between tokens. -/
def isBlank (c : Char) : Bool := c = ' ' || c = '\n' || c = '\t' || c = '\r'

/-- The text after its blanks. -/
def skipBlanks (cs : List Char) : List Char := cs.dropWhile isBlank

/-- The value of a digit of base sixteen. -/
def hexValue? (c : Char) : Option Nat :=
  if '0' ≤ c ∧ c ≤ '9' then some (c.toNat - 48)
  else if 'a' ≤ c ∧ c ≤ 'f' then some (c.toNat - 87)
  else if 'A' ≤ c ∧ c ≤ 'F' then some (c.toNat - 55)
  else none

/-- The four digits of an escaped code unit. -/
def codeUnit (cs : List Char) : Outcome Nat :=
  let invalid : Outcome Nat :=
    let left := byteCount cs
    if left < 4 then .error ⟨.endInText, 0⟩ else .error ⟨.invalidEscape, left - 4⟩
  match cs with
  | a :: b :: c :: d :: rest =>
    match hexValue? a, hexValue? b, hexValue? c, hexValue? d with
    | some a, some b, some c, some d => .ok (((a * 16 + b) * 16 + c) * 16 + d, rest)
    | _, _, _, _ => invalid
  | _ => invalid

/-- The character of an escaped code unit, of two if the first is the first half of a pair. -/
def escapedUnit (strict : Bool) (cs : List Char) : Outcome Char :=
  match codeUnit cs with
  | .error e => .error e
  | .ok (high, rest) =>
    if !strict then .ok (Char.ofNat high, rest)
    else if 0xDC00 ≤ high && high ≤ 0xDFFF then failAt .loneSurrogate rest
    else if high < 0xD800 || 0xDBFF < high then .ok (Char.ofNat high, rest)
    else
      match rest with
      | [] => failAt .endInText rest
      | '\\' :: [] => failAt .endInText []
      | '\\' :: 'u' :: rest =>
        match codeUnit rest with
        | .error e => .error e
        | .ok (low, rest) =>
          if low < 0xDC00 || 0xDFFF < low then failAt .loneSurrogate rest
          else .ok (Char.ofNat (0x10000 + (high - 0xD800) * 0x400 + (low - 0xDC00)), rest)
      | '\\' :: rest => failOn .unexpectedEndOfEscape rest
      | rest => failOn .unexpectedEndOfEscape rest

/-- The character of an escape; the text starts after the backslash. -/
def escaped (strict : Bool) (cs : List Char) : Outcome Char :=
  match cs with
  | [] => failAt .endInText []
  | '\"' :: rest => .ok ('\"', rest)
  | '\\' :: rest => .ok ('\\', rest)
  | '/' :: rest => .ok ('/', rest)
  | 'b' :: rest => .ok (Char.ofNat 8, rest)
  | 'f' :: rest => .ok (Char.ofNat 12, rest)
  | 'n' :: rest => .ok ('\n', rest)
  | 'r' :: rest => .ok ('\r', rest)
  | 't' :: rest => .ok ('\t', rest)
  | 'u' :: rest => escapedUnit strict rest
  | rest => failOn .invalidEscape rest

/-- The characters up to the closing quote; `read` holds those before, in reverse. -/
def quoted (strict : Bool) : Nat → List Char → List Char → Outcome String
  | 0, _, cs => failAt .endInText cs
  | fuel + 1, read, cs =>
    match cs with
    | [] => failAt .endInText []
    | '\"' :: rest => .ok (String.ofList read.reverse, rest)
    | '\\' :: rest =>
      match escaped strict rest with
      | .error e => .error e
      | .ok (c, rest) => quoted strict fuel (c :: read) rest
    | c :: rest =>
      if c.toNat < 32 then failAt .controlCharacter rest
      else quoted strict fuel (c :: read) rest

/-! ### Numbers -/

/-- The greatest natural number that is read exactly. -/
def greatestExact : Nat := Bound.unsigned64 - 1

/-- The greatest power of ten whose number is exact to the last bit. -/
def greatestPower : Nat := 308

/-- The number nearest to a power of ten. -/
def powerOfTen (n : Nat) : Binary64 := (Binary64.ofNat (Nat.pow 10 n)).getD .zero

/-- Apply a decimal exponent, in steps if it is far below zero; none if the
result is too large. -/
def applyExponent : Nat → Binary64 → Int → Option Binary64
  | 0, f, _ => some f
  | fuel + 1, f, e =>
    if e.natAbs ≤ greatestPower then
      if 0 ≤ e then f.mul (powerOfTen e.toNat) else f.div (powerOfTen e.natAbs)
    else if f.isZero then some f
    else if 0 ≤ e then none
    else match f.div (powerOfTen greatestPower) with
      | some f => applyExponent fuel f (e + greatestPower)
      | none => none

/-- A number from the parts of its text. -/
def fromParts (strict negative : Bool) (significand : Nat) (exponent : Int) (rest : List Char) :
    Outcome Json :=
  match (Binary64.ofNat significand).bind (applyExponent 8 · exponent) with
  | some f => .ok (.double (f.withSign negative), rest)
  | none => if strict then failAt .numberOutOfRange rest else .ok (.null, rest)

/-- The least and the greatest exponent that are told apart. -/
def clampExponent (e : Int) : Int := max (-2147483648) (min 2147483647 e)

/-- The digits of an exponent after the first.  An exponent that grows too
large makes any number but zero too large, or zero. -/
def exponentDigits (strict negative : Bool) (significand : Nat) (start : Int) (down : Bool)
    (value : Nat) : List Char → Outcome Json
  | [] =>
    let exponent := if down then start - value else start + value
    fromParts strict negative significand (clampExponent exponent) []
  | c :: rest =>
    if c.isDigit then
      let next := value * 10 + (c.toNat - 48)
      if 2147483647 < next then
        if significand ≠ 0 && !down && strict then failAt .numberOutOfRange rest
        else .ok (.double (Binary64.zero.withSign negative), rest.dropWhile Char.isDigit)
      else exponentDigits strict negative significand start down next rest
    else
      fromParts strict negative significand
        (clampExponent (if down then start - value else start + value)) (c :: rest)

/-- The exponent of a number; the text starts after its letter. -/
def exponentPart (strict negative : Bool) (significand : Nat) (start : Int) (cs : List Char) :
    Outcome Json :=
  let (down, cs) := match cs with
    | '+' :: rest => (false, rest)
    | '-' :: rest => (true, rest)
    | cs => (false, cs)
  match cs with
  | [] => failAt (if strict then .endInValue else .invalidNumber) []
  | c :: rest =>
    if c.isDigit then exponentDigits strict negative significand start down (c.toNat - 48) rest
    else failOn .invalidNumber (c :: rest)

/-- What follows the digits of a number. -/
def afterDigits (strict negative : Bool) (significand : Nat) (exponent : Int) (cs : List Char) :
    Outcome Json :=
  match cs with
  | 'e' :: rest | 'E' :: rest => exponentPart strict negative significand exponent rest
  | cs => fromParts strict negative significand exponent cs

/-- The digits after the point.  Digits that would make the significand too
large to be exact are dropped. -/
def fractionDigits (strict negative : Bool) (significand : Nat) (start : Int) (count : Nat) :
    List Char → Outcome Json
  | [] =>
    if count = 0 then failAt (if strict then .endInValue else .invalidNumber) []
    else fromParts strict negative significand (start - count) []
  | c :: rest =>
    if c.isDigit then
      let next := significand * 10 + (c.toNat - 48)
      if greatestExact < next then
        afterDigits strict negative significand (start - count) (rest.dropWhile Char.isDigit)
      else fractionDigits strict negative next start (count + 1) rest
    else if count = 0 then failOn .invalidNumber (c :: rest)
    else afterDigits strict negative significand (start - count) (c :: rest)

/-- What follows the digits of an integer that is exact. -/
def afterInteger (strict negative : Bool) (value : Nat) (cs : List Char) : Outcome Json :=
  match cs with
  | '.' :: rest => fractionDigits strict negative value 0 0 rest
  | 'e' :: rest | 'E' :: rest => exponentPart strict negative value 0 rest
  | cs =>
    if !negative then .ok (.integer value, cs)
    else if value = 0 || Bound.signed64 < value then fromParts strict true value 0 cs
    else .ok (.integer (-value), cs)

/-- The digits of an integer after the first. -/
def integerDigits (strict negative : Bool) (value : Nat) : List Char → Outcome Json
  | [] => afterInteger strict negative value []
  | c :: rest =>
    if c.isDigit then
      let next := value * 10 + (c.toNat - 48)
      if greatestExact < next then
        let more := rest.takeWhile Char.isDigit
        let cs := rest.dropWhile Char.isDigit
        let exponent : Int := more.length + 1
        match cs with
        | '.' :: rest => fractionDigits strict negative value exponent 0 rest
        | cs => afterDigits strict negative value exponent cs
      else integerDigits strict negative next rest
    else afterInteger strict negative value (c :: rest)

/-- A number without its sign. -/
def number (strict negative : Bool) (cs : List Char) : Outcome Json :=
  match cs with
  | [] => failAt (if strict then .endInValue else .invalidNumber) []
  | '0' :: rest =>
    match rest with
    | c :: _ =>
      if c.isDigit then failOn .invalidNumber rest else afterInteger strict negative 0 rest
    | [] => afterInteger strict negative 0 []
  | c :: rest =>
    if c.isDigit then integerDigits strict negative (c.toNat - 48) rest
    else failOn .invalidNumber (c :: rest)

/-- The rest of a word that stands for a value. -/
def word (letters : List Char) (value : Json) (cs : List Char) : Outcome Json :=
  match letters, cs with
  | [], cs => .ok (value, cs)
  | _ :: _, [] => failAt .endInValue []
  | a :: letters, c :: rest =>
    if a = c then word letters value rest else failOn .expectedIdentifier (c :: rest)

/-! ### Values -/

/-- The key of a member and the colon after it; the text starts after the quote. -/
def memberKey (strict : Bool) (cs : List Char) : Outcome String :=
  match quoted strict (cs.length + 1) [] cs with
  | .error e => .error e
  | .ok (key, rest) =>
    match skipBlanks rest with
    | ':' :: rest => .ok (key, rest)
    | [] => failAt .endInObject []
    | rest => failOn .expectedColon rest

mutual

/-- A value.  `depth` bounds how many arrays and objects may still be opened. -/
def value (strict : Bool) : Nat → Nat → List Char → Outcome Json
  | 0, _, cs => failAt .tooDeep cs
  | fuel + 1, depth, cs =>
    match skipBlanks cs with
    | [] => failAt .endInValue []
    | 'n' :: rest => word "ull".toList .null rest
    | 't' :: rest => word "rue".toList (.bool true) rest
    | 'f' :: rest => word "alse".toList (.bool false) rest
    | '-' :: rest => number strict true rest
    | '\"' :: rest =>
      match quoted strict (rest.length + 1) [] rest with
      | .error e => .error e
      | .ok (s, rest) => .ok (.text s, rest)
    | '[' :: rest =>
      if strict && depth ≤ 1 then failOn .tooDeep ('[' :: rest)
      else items strict fuel (depth - 1) [] rest
    | '\x7b' :: rest =>
      if strict && depth ≤ 1 then failOn .tooDeep ('\x7b' :: rest)
      else members strict fuel (depth - 1) [] true rest
    | c :: rest =>
      if c.isDigit then number strict false (c :: rest) else failOn .expectedValue (c :: rest)

/-- The items of an array from the given ones on, which are in reverse. -/
def items (strict : Bool) : Nat → Nat → List Json → List Char → Outcome Json
  | 0, _, _, cs => failAt .tooDeep cs
  | fuel + 1, depth, read, cs =>
    match skipBlanks cs with
    | [] => failAt .endInList []
    | ']' :: rest => .ok (.array read.reverse, rest)
    | cs =>
      let next : Except Stop (List Char) :=
        if read.isEmpty then .ok cs
        else match cs with
          | ',' :: rest =>
            match skipBlanks rest with
            | ']' :: rest =>
              failOn (if strict then .trailingComma else .expectedValue) (']' :: rest)
            | [] => failAt .endInValue []
            | rest => .ok rest
          | cs => failOn .expectedListComma cs
      match next with
      | .error e => .error e
      | .ok cs =>
        match value strict fuel depth cs with
        | .error e => .error e
        | .ok (v, rest) => items strict fuel depth (v :: read) rest

/-- The members of an object from the given ones on. -/
def members (strict : Bool) : Nat → Nat → Members → Bool → List Char → Outcome Json
  | 0, _, _, _, cs => failAt .tooDeep cs
  | fuel + 1, depth, read, first, cs =>
    match skipBlanks cs with
    | [] => failAt .endInObject []
    | '\x7d' :: rest => .ok (.object read, rest)
    | cs =>
      let next : Except Stop (List Char) :=
        if first then .ok cs
        else match cs with
          | ',' :: rest =>
            match skipBlanks rest with
            | '\x7d' :: rest =>
              failOn (if strict then .trailingComma else .keyMustBeText) ('\x7d' :: rest)
            | [] => failAt (if strict then .endInValue else .endInObject) []
            | rest => .ok rest
          | cs => failOn .expectedObjectComma cs
      match next with
      | .error e => .error e
      | .ok ('\"' :: rest) =>
        match memberKey strict rest with
        | .error e => .error e
        | .ok (key, rest) =>
          match value strict fuel depth rest with
          | .error e => .error e
          | .ok (v, rest) => members strict fuel depth (read.insert key v) false rest
      | .ok rest => failOn .keyMustBeText rest

end

/-- How many arrays and objects may be nested, plus one. -/
def maxDepth : Nat := 128

/-- The place of a fault in a text. -/
def locate (text : List Char) (e : Stop) : SyntaxError :=
  ⟨e.fault, Place.after (byteCount text - e.bytesAfter) text⟩

end Reader

open Reader in
/-- The value that a text holds. -/
def parse (text : String) : Except SyntaxError Json :=
  let cs := text.toList
  match value true (2 * cs.length + 2) maxDepth cs with
  | .error e => .error (locate cs e)
  | .ok (v, rest) =>
    match skipBlanks rest with
    | [] => .ok v
    | rest =>
      match (failOn .trailingCharacters rest : Except Stop Json) with
      | .error e => .error (locate cs e)
      | .ok v => .ok v

end WebBaseline.Json
