import WebBaseline.Text.Blank

/-!
# Names in scripts

A name is a run of name characters and of code point escapes such as
`\u0066`; it does not start with a digit.  Every character that is neither a
blank, nor a control character, nor punctuation may stand in a name.

All functions here say how many characters a lexeme takes at the front of a
text; zero means that there is none.
-/

namespace WebBaseline.Script

/-- Blanks between the words of a script: white space and the invisible spaces. -/
def isBlank (c : Char) : Bool :=
  Text.isBlank c || c.toNat = 0x200B || c.toNat = 0x2060 || c.toNat = 0xFEFF

/-- The characters that end a line. -/
def isLineEnd (c : Char) : Bool :=
  c = '\n' || c = '\r' || c.toNat = 0x2028 || c.toNat = 0x2029

/-- The ASCII characters that stand for themselves and never in a name. -/
def marks : List Char := ":;\x60\"\x27@#.,|^&<=>+-*/\\%?!~()[]\x7b\x7d".toList

/-- The characters of names. -/
def isNamePart (c : Char) : Bool :=
  32 < c.toNat && !isBlank c && !marks.contains c

/-- Hexadecimal digits. -/
def isHexDigit (c : Char) : Bool :=
  c.isDigit || ('a' ≤ c && c ≤ 'f') || ('A' ≤ c && c ≤ 'F')

/-- The length of a code point escape. -/
def codePointEscape : List Char → Nat
  | '\\' :: 'u' :: '\x7b' :: rest =>
    let digits := (rest.takeWhile isHexDigit).length
    if 0 < digits && rest[digits]? == some '\x7d' then digits + 4 else 0
  | '\\' :: 'u' :: rest => if 4 ≤ ((rest.take 4).takeWhile isHexDigit).length then 6 else 0
  | _ => 0

/-- The length of the rest of a name, the first `skip` characters of which are known. -/
def nameTail : Nat → List Char → Nat
  | _, [] => 0
  | skip + 1, _ :: rest => nameTail skip rest + 1
  | 0, c :: rest =>
    if isNamePart c then nameTail 0 rest + 1
    else match codePointEscape (c :: rest) with
      | 0 => 0
      | n + 1 => nameTail n rest + 1

/-- The length of a name. -/
def nameLength : List Char → Nat
  | c :: rest => if c.isDigit then 0 else nameTail 0 (c :: rest)
  | [] => 0

/-- The letters of tag names. -/
def isTagLetter (c : Char) : Bool := c.isAlphanum || c = '_' || c = '$'

/-- The length of a name in a tag, which may also be ASCII words joined with hyphens. -/
def tagNameLength (cs : List Char) : Nat :=
  let word := (cs.takeWhile isTagLetter).length
  let hyphenated := (cs.takeWhile fun c => isTagLetter c || c = '-').length
  if word < hyphenated && 0 < word && !(cs.headD ' ').isDigit then hyphenated else nameLength cs

/-- What is left after the blanks at the front. -/
def skipBlanks (cs : List Char) : List Char := cs.dropWhile isBlank

end WebBaseline.Script
