import WebBaseline.Script.Name

/-!
# Comments, numbers, strings and patterns in scripts

Every function says how many characters a lexeme takes at the front of a
text; zero means that there is none.
-/

namespace WebBaseline.Script

/-- The length of a text up to and with the next `*/`, zero if there is none. -/
def commentEnd : Nat → List Char → Nat
  | n, '*' :: '/' :: _ => n + 2
  | n, _ :: rest => commentEnd (n + 1) rest
  | _, [] => 0

/-- The length of a comment.  A block comment that does not end is none. -/
def commentLength : List Char → Nat
  | '/' :: '/' :: rest => (rest.takeWhile (!isLineEnd ·)).length + 2
  | '/' :: '*' :: rest => commentEnd 2 rest
  | _ => 0

/-- The length of a line comment that opens or closes like a comment of markup. -/
def markupCommentLength (cs : List Char) : Nat :=
  if ['<', '!', '-', '-'].isPrefixOf cs || ['-', '-', '>'].isPrefixOf cs then
    (cs.takeWhile fun c => c != '\n' && c.toNat != 0x2028 && c.toNat != 0x2029).length
  else 0

/-- The length of a run of digits, in which single underscores may stand between digits. -/
def digitRun (isDigit : Char → Bool) : List Char → Nat
  | '_' :: c :: rest => if isDigit c then digitRun isDigit rest + 2 else 0
  | c :: rest => if isDigit c then digitRun isDigit rest + 1 else 0
  | [] => 0

/-- The length of a run of digits that starts with a digit. -/
def digitsLength (isDigit : Char → Bool) : List Char → Nat
  | c :: rest => if isDigit c then digitRun isDigit rest + 1 else 0
  | [] => 0

/-- The length of an exponent. -/
def exponentLength (cs : List Char) : Nat :=
  match cs with
  | e :: rest =>
    if e = 'e' || e = 'E' then
      let sign := match rest with
        | '+' :: _ | '-' :: _ => 1
        | _ => 0
      match digitsLength Char.isDigit (rest.drop sign) with
      | 0 => 0
      | n => n + sign + 1
    else 0
  | [] => 0

/-- A length with the mark of whole numbers of any size, if it follows. -/
def withBigMark (n : Nat) (cs : List Char) : Nat := if cs[n]? == some 'n' then n + 1 else n

/-- The length of a number that starts with a digit, or with a point and a digit. -/
def numberLength (cs : List Char) : Nat :=
  let radix (isDigit : Char → Bool) : Nat := digitsLength isDigit (cs.drop 2)
  let decimal : Nat :=
    let whole := digitsLength Char.isDigit cs
    let afterWhole := cs.drop whole
    let point := match afterWhole with
      | '.' :: rest => digitsLength Char.isDigit rest + 1
      | _ => 0
    let exponent := exponentLength (afterWhole.drop point)
    if 0 < point || 0 < exponent then whole + point + exponent else withBigMark whole cs
  let special := match cs with
    | '0' :: x :: _ =>
      if x = 'x' || x = 'X' then radix isHexDigit
      else if x = 'b' || x = 'B' then radix fun c => c = '0' || c = '1'
      else if x = 'o' || x = 'O' then radix fun c => '0' ≤ c && c ≤ '7'
      else 0
    | _ => 0
  if 0 < special then withBigMark (special + 2) cs else decimal

/-- The length of what follows the opening quote of a string, with the closing quote if
there is one on the line.  A backslash takes the next character with it. -/
def stringTail (quote : Char) : Nat → List Char → Nat
  | n, '\\' :: '\r' :: '\n' :: rest => stringTail quote (n + 3) rest
  | n, '\\' :: _ :: rest => stringTail quote (n + 2) rest
  | n, c :: rest =>
    if c = quote then n + 1
    else if c = '\n' || c = '\r' then n
    else stringTail quote (n + 1) rest
  | n, [] => n

/-- The length of a class in a pattern, from after the opening bracket to the closing one. -/
def classEnd : Nat → List Char → Nat
  | n, '\\' :: c :: rest => if c = '\n' then 0 else classEnd (n + 2) rest
  | n, c :: rest =>
    if c = ']' then n + 1 else if c = '\n' || c = '\\' then 0 else classEnd (n + 1) rest
  | _, [] => 0

/-- The length of a pattern: `skip` characters of it are known, `n` characters are counted. -/
def patternTail : Nat → Nat → List Char → Nat
  | skip + 1, n, _ :: rest => patternTail skip (n + 1) rest
  | 0, n, '\\' :: c :: rest => if c = '\n' then n else patternTail 1 (n + 1) (c :: rest)
  | 0, n, '[' :: rest =>
    match classEnd 0 rest with
    | 0 => n
    | k => patternTail k (n + 1) rest
  | 0, n, c :: rest =>
    if c = '/' || c = '\n' || c = '\\' then n else patternTail 0 (n + 1) rest
  | _, n, [] => n

/-- The length of what follows the slash that opens a pattern, with the closing slash and
the flags if they are there. -/
def patternLength (cs : List Char) : Nat :=
  let body := patternTail 0 0 cs
  match cs.drop body with
  | '/' :: rest =>
    if body = 0 then 0 else body + 1 + (rest.takeWhile fun c => 'a' ≤ c && c ≤ 'z').length
  | _ => body

/-- The length of an escape as strings have it. -/
def escapeLength (cs : List Char) : Nat :=
  let octal := ((cs.drop 1).take 3).takeWhile fun c => '0' ≤ c && c ≤ '7'
  match cs with
  | '\\' :: 'u' :: _ => codePointEscape cs
  | '\\' :: 'x' :: a :: b :: _ => if isHexDigit a && isHexDigit b then 4 else 0
  | '\\' :: 'x' :: _ => 0
  | '\\' :: '\r' :: '\n' :: _ => 3
  | '\\' :: _ :: _ => if octal.isEmpty then 2 else octal.length + 1
  | _ => 0

/-- The length of a character reference in the text of an element. -/
def referenceLength (cs : List Char) : Nat :=
  let named (skip : Nat) (test : Char → Bool) (limit : Nat) : Nat :=
    let n := ((cs.drop skip).takeWhile test).length
    if 0 < n && n ≤ limit && cs[skip + n]? == some ';' then skip + n + 1 else 0
  match cs with
  | '&' :: '#' :: x :: _ =>
    if x = 'x' || x = 'X' then named 3 isHexDigit 6 else named 2 Char.isDigit 5
  | '&' :: _ => named 1 Char.isAlpha 30
  | _ => 0

/-- The characters that end a piece of the text of an element. -/
def endsElementText (c : Char) : Bool :=
  c = '<' || c = '>' || c = '\x7b' || c = '\x7d' || c = '&'

/-- The characters that end a piece of a template. -/
def templateStop : Nat → List Char → Option Nat
  | n, '\x60' :: _ => some n
  | n, '\\' :: _ => some n
  | n, '$' :: '\x7b' :: _ => some n
  | n, c :: rest => if c.toNat = 0 then none else templateStop (n + 1) rest
  | _, [] => none

end WebBaseline.Script
