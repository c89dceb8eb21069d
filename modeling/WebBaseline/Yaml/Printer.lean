import WebBaseline.Encoding.Record
import WebBaseline.Text.Hex
import WebBaseline.Yaml.Node
import WebBaseline.Yaml.Plain

/-!
# Writing YAML

Mappings and sequences are written as blocks, empty ones in brackets.  A scalar
is written in its own style if that can hold its text, and else in quotes.
Nodes are written without tags.
-/

namespace WebBaseline.Yaml

/-! ### Styles of texts -/

/-- Whether a character may stand for itself. -/
def isPrintable (c : Char) : Bool :=
  let n := c.toNat
  c = '\n' || (0x20 ≤ n && n ≤ 0x7E) ||
    (0xA0 ≤ n && n != 0xFEFF && n != 0xFFFE && n != 0xFFFF)

/-- Characters with which no plain scalar starts. -/
def startIndicators : List Char := "#,[]\x7b\x7d&*!|>\x27\"%@\x60".toList

/-- Whether characters after the first, which is given, hold a mark of a key or of a comment. -/
def hasInnerIndicator : Char → List Char → Bool
  | _, [] => false
  | before, c :: rest =>
    (c = ':' && atBlankOrEnd rest.head?) || (c = '#' && (isBlank before || isBreak before)) ||
      hasInnerIndicator c rest

/-- Whether characters look like something other than a plain scalar. -/
def hasIndicator : List Char → Bool
  | [] => false
  | c :: rest =>
    let three := (c :: rest).take 3
    three == ['-', '-', '-'] || three == ['.', '.', '.'] || startIndicators.contains c ||
      ((c = '?' || c = ':' || c = '-') && atBlankOrEnd rest.head?) || hasInnerIndicator c rest

/-- Whether two characters that pass tests follow each other. -/
def hasPair (first second : Char → Bool) : List Char → Bool
  | a :: b :: rest => (first a && second b) || hasPair first second (b :: rest)
  | _ => false

/-- Whether a text can be written in a block. -/
def allowsLiteral (cs : List Char) : Bool :=
  !cs.isEmpty && cs.all isPrintable && !hasPair (· = ' ') isBreak cs && cs.getLast? != some ' '

/-- Whether a text can be written in single quotes. -/
def allowsSingle (cs : List Char) : Bool :=
  cs.all isPrintable && !hasPair (· = ' ') isBreak cs && !hasPair isBreak (· = ' ') cs

/-- Whether a text can be written without quotes. -/
def allowsPlain (cs : List Char) : Bool :=
  cs.all (fun c => isPrintable c && !isBreak c) && cs.head? != some ' ' &&
    cs.getLast? != some ' ' && !hasIndicator cs

/-- The style in which a text is written; `inKey` says that it has to fit into the line of a key. -/
def usableStyle (inKey : Bool) (style : Style) (cs : List Char) : Style :=
  let quoted : Style := if allowsSingle cs then .singleQuoted else .doubleQuoted
  if inKey && cs.any isBreak then .doubleQuoted
  else match style with
    | .plain => if allowsPlain cs && !(inKey && cs.isEmpty) then .plain else quoted
    | .singleQuoted => quoted
    | .doubleQuoted => .doubleQuoted
    | .literal | .folded => if allowsLiteral cs && !inKey then .literal else .doubleQuoted

/-! ### Scalars -/

/-- A number as digits of base sixteen. -/
def hexDigits (width n : Nat) : List Char :=
  ((List.range width).reverse.map fun i => Text.hexDigit (n >>> (4 * i))).map Char.toUpper

/-- The escapes that are one letter. -/
def letterEscapes : List (Nat × Char) :=
  [(0, '0'), (7, 'a'), (8, 'b'), (9, 't'), (10, 'n'), (11, 'v'), (12, 'f'), (13, 'r'), (27, 'e'),
   (34, '\"'), (92, '\\'), (0x85, 'N'), (0xA0, '_'), (0x2028, 'L'), (0x2029, 'P')]

/-- A character after a backslash. -/
def escaped (n : Nat) : List Char :=
  match letterEscapes.lookup n with
  | some c => ['\\', c]
  | none =>
    if n ≤ 0xFF then '\\' :: 'x' :: hexDigits 2 n
    else if n ≤ 0xFFFF then '\\' :: 'u' :: hexDigits 4 n
    else '\\' :: 'U' :: hexDigits 8 n

/-- A character in double quotes. -/
def doubleQuotedChar (c : Char) : List Char :=
  if !isPrintable c || isBreak c || c = '\"' || c = '\\' then escaped c.toNat else [c]

/-- Blanks. -/
def blanks (n : Nat) : List Char := List.replicate n ' '

/-- The characters of a text in single quotes.  A line after a break is indented, and a line
feed takes an empty line; `broken` says that a break came before. -/
def singleQuotedChars (indent : Nat) : Bool → List Char → List Char
  | broken, [] => if broken then blanks indent else []
  | broken, c :: rest =>
    if isBreak c then
      (if !broken && c = '\n' then ['\n'] else []) ++ c :: singleQuotedChars indent true rest
    else
      (if broken then blanks indent else []) ++ (if c = '\x27' then [c, c] else [c]) ++
        singleQuotedChars indent false rest

/-- The lines of a literal text, each with an indentation unless it is empty. -/
def literalChars (indent : Nat) : Bool → List Char → List Char
  | _, [] => []
  | broken, c :: rest =>
    if isBreak c then c :: literalChars indent true rest
    else (if broken then blanks indent else []) ++ c :: literalChars indent false rest

/-- The width of an indentation. -/
def indentWidth : Nat := 2

/-- What comes after the mark of a literal text: its indentation, if its start does not show
that, and what to do with the breaks at its end. -/
def literalHints (cs : List Char) : List Char :=
  let shown := (cs.head?.map fun c => c != ' ' && !isBreak c).getD true
  (if shown then [] else Nat.toDigits 10 indentWidth) ++
    match cs.reverse with
    | [] => ['-']
    | [c] => if isBreak c then ['+'] else ['-']
    | c :: d :: _ => if !isBreak c then ['-'] else if isBreak d then ['+'] else []

/-- A scalar in a style that can hold its text. -/
def writeText (indent : Nat) (style : Style) (cs : List Char) : List Char :=
  match style with
  | .plain => cs
  | .singleQuoted => '\x27' :: singleQuotedChars indent false cs ++ ['\x27']
  | .doubleQuoted => '\"' :: cs.flatMap doubleQuotedChar ++ ['\"']
  | .literal | .folded => '|' :: literalHints cs ++ '\n' :: literalChars indent true cs

/-- A scalar after the mark in front of it, with the end of its line. -/
def writeScalar (indent : Nat) (style : Style) (text : String) : List Char :=
  let cs := text.toList
  let style := usableStyle false style cs
  let ended := style == .literal && (cs.getLast?.map isBreak).getD false
  (if style == .plain && cs.isEmpty then [] else [' ']) ++ writeText indent style cs ++
    (if ended then [] else ['\n'])

/-- The longest key, in bytes, that is written without a mark of its own. -/
def longestPlainKey : Nat := 128

/-- Whether a text can be a key without a mark of its own. -/
def isSimpleKey (text : String) : Bool :=
  !text.toList.any isBreak && text.utf8ByteSize ≤ longestPlainKey

/-! ### Collections -/

/-- Put a block on the line of the mark in front of it. -/
def joinLine (indent : Nat) (block : List Char) : List Char := ' ' :: block.drop indent

mutual

/-- A node after the mark in front of it.  `indent` is that of the collection around it, and
`inMapping` says that this is a mapping, in which sequences are not indented further. -/
def writeNode (indent : Nat) (inMapping : Bool) : Node → List Char
  | .scalar _ _ style text => writeScalar (indent + indentWidth) style text
  | .sequence _ _ [] => " []\n".toList
  | .sequence _ _ items =>
    if inMapping then '\n' :: writeItems indent items
    else joinLine (indent + indentWidth) (writeItems (indent + indentWidth) items)
  | .mapping _ _ [] => " \x7b\x7d\n".toList
  | .mapping _ _ entries =>
    if inMapping then '\n' :: writeEntries (indent + indentWidth) entries
    else joinLine (indent + indentWidth) (writeEntries (indent + indentWidth) entries)
  | .void | .reference _ | .broken _ => ['\n']

/-- The items of a sequence. -/
def writeItems (indent : Nat) : List Node → List Char
  | [] => []
  | item :: rest => blanks indent ++ '-' :: writeNode indent false item ++ writeItems indent rest

/-- The entries of a mapping. -/
def writeEntries (indent : Nat) : List (Node × Node) → List Char
  | [] => []
  | (key, value) :: rest =>
    (match key with
      | .scalar _ _ style text =>
        if isSimpleKey text then
          let cs := text.toList
          blanks indent ++ writeText (indent + indentWidth) (usableStyle true style cs) cs
        else blanks indent ++ '?' :: writeScalar (indent + indentWidth) style text ++ blanks indent
      | key => blanks indent ++ '?' :: writeNode indent false key ++ blanks indent) ++
      ':' :: writeNode indent true value ++ writeEntries indent rest

end

/-- The text of a node as a document. -/
def Node.text : Node → String
  | .mapping _ _ (entry :: rest) => String.ofList (writeEntries 0 (entry :: rest))
  | .sequence _ _ (item :: rest) => String.ofList (writeItems 0 (item :: rest))
  | n => String.ofList ((writeNode 0 false n).drop 1)

/-! ### Nodes of values -/

/-- The style of a text that is to be read as a text: literal if it has several lines, in quotes
if it would stand for something else. -/
def textStyle (text : String) : Style :=
  if text.toList.contains '\n' then .literal
  else match Plain.found text with
    | .text _ => if Plain.hasNeedlessZeros text then .singleQuoted else .plain
    | _ => .singleQuoted

/-- The node of a text. -/
def Node.ofText (text : String) : Node := .scalar {} none (textStyle text) text

/-- The node of a word that stands for itself. -/
def Node.ofWord (word : String) : Node := .scalar {} none .plain word

/-- YAML as a format to write records to. -/
def target : Encoding.Target Node where
  natural n := .ofWord (toString n)
  text := .ofText
  boolean b := .ofWord (if b then "true" else "false")
  list items := .sequence {} none items
  record fields := .mapping {} none (fields.map fun f => (.ofText f.1, f.2))

end WebBaseline.Yaml
