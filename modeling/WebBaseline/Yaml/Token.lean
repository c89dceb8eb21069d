import WebBaseline.Yaml.Fault

/-!
# Tokens of YAML

The marks, names and scalars that a text is made of.  Indentation shows as
tokens that start and end blocks.
-/

namespace WebBaseline.Yaml

/-- How a scalar is written. -/
inductive Style where
  | plain
  | singleQuoted
  | doubleQuoted
  | literal
  | folded
deriving BEq, DecidableEq, Inhabited, Repr

/-- A token. -/
inductive Token where
  | streamStart
  | streamEnd
  | versionDirective (major minor : Nat)
  | tagDirective (handle expansion : String)
  | documentStart
  | documentEnd
  | blockSequenceStart
  | blockMappingStart
  | blockEnd
  | flowSequenceStart
  | flowSequenceEnd
  | flowMappingStart
  | flowMappingEnd
  | blockEntry
  | flowEntry
  | key
  | value
  | reference (name : String)
  | anchor (name : String)
  | tag (handle suffix : String)
  | scalar (style : Style) (text : String)
deriving BEq, DecidableEq, Inhabited, Repr

/-- A token with the places of its start and its end. -/
structure Located where
  token : Token
  start : Mark
  stop : Mark
deriving BEq, Inhabited, Repr

/-- A place where a key without a mark of its own may have started. -/
structure SimpleKey where
  possible : Bool := false
  /-- Nothing but a key can stand there. -/
  required : Bool := false
  /-- The number of the token that starts it. -/
  token : Nat := 0
  place : Mark := {}
deriving Inhabited, Repr

/-- Where a reader of tokens is: the text that is left, the tokens that wait, the levels of
indentation and the keys that may have started. -/
structure Scanner where
  rest : List Char
  mark : Mark := {}
  started : Bool := false
  queue : List Located := []
  /-- The number of tokens that have been taken. -/
  taken : Nat := 0
  indent : Int := -1
  indents : List Int := []
  keyAllowed : Bool := false
  keys : List SimpleKey := []
  flowLevel : Nat := 0
deriving Inhabited

/-- A step of a reader of tokens. -/
abbrev Scan (α : Type) := StateT Scanner (Except SyntaxError) α

/-! ### Characters -/

/-- Line breaks. -/
def isBreak (c : Char) : Bool :=
  c = '\n' || c = '\r' || c.toNat = 0x85 || c.toNat = 0x2028 || c.toNat = 0x2029

/-- Blanks inside a line. -/
def isBlank (c : Char) : Bool := c = ' ' || c = '\t'

/-- The characters of names. -/
def isWordChar (c : Char) : Bool := c.isAlphanum || c = '_' || c = '-'

/-- Whether a position is the end of the text. -/
def atEnd : Option Char → Bool
  | none => true
  | some _ => false

/-- Whether a position is a line break or the end of the text. -/
def atBreakOrEnd : Option Char → Bool
  | none => true
  | some c => isBreak c

/-- Whether a position is blank, a line break or the end of the text. -/
def atBlankOrEnd : Option Char → Bool
  | none => true
  | some c => isBlank c || isBreak c

/-- Characters that a text may hold. -/
def isAllowed (c : Char) : Bool :=
  let n := c.toNat
  n = 9 || n = 10 || n = 13 || (0x20 ≤ n && n ≤ 0x7E) || n = 0x85 || (0xA0 ≤ n && n ≤ 0xD7FF) ||
    (0xE000 ≤ n && n ≤ 0xFFFD) || 0x10000 ≤ n

namespace Scan

/-- Fail with what is being read. -/
def failSince {α : Type} (activity : Activity) (since : Mark) (problem : Problem) : Scan α := do
  throw ⟨problem, (← get).mark, some (activity, since)⟩

/-- Fail at the current place. -/
def failHere {α : Type} (problem : Problem) : Scan α := do
  throw ⟨problem, (← get).mark, none⟩

/-- The character at a distance. -/
def look (distance : Nat) : Scan (Option Char) := do return (← get).rest[distance]?

/-- Whether the next character is the given one. -/
def nextIs (c : Char) : Scan Bool := do return (← get).rest.head? == some c

/-- The current place. -/
def place : Scan Mark := do return (← get).mark

/-- Pass over a character that ends no line. -/
def skip : Scan Unit :=
  modify fun s =>
    { s with rest := s.rest.tail
             mark := { s.mark with index := s.mark.index + 1, column := s.mark.column + 1 } }

/-- Pass over some characters that end no line. -/
def skipMany : Nat → Scan Unit
  | 0 => pure ()
  | n + 1 => do skip; skipMany n

/-- Take a line break; what it counts as is a line feed, or the break itself. -/
def readBreak : Scan (List Char) := do
  let s ← get
  let after (n : Nat) : Mark := ⟨s.mark.index + n, s.mark.line + 1, 0⟩
  match s.rest with
  | '\r' :: '\n' :: rest => set { s with rest, mark := after 2 }; return ['\n']
  | c :: rest =>
    set { s with rest, mark := after 1 }
    return [if c.toNat = 0x2028 || c.toNat = 0x2029 then c else '\n']
  | [] => return []

/-- Take characters that end no line while they pass a test. -/
def readWhile (test : Char → Bool) : Scan (List Char) := do
  let cs := (← get).rest.takeWhile test
  modify fun s =>
    { s with rest := s.rest.drop cs.length
             mark := { s.mark with index := s.mark.index + cs.length
                                   column := s.mark.column + cs.length } }
  return cs

/-- Pass over a comment, if there is one. -/
def skipComment : Scan Unit := do
  if ← nextIs '#' then let _ ← readWhile (!isBreak ·)

/-- Put a token at the end of the queue. -/
def push (token : Token) (start stop : Mark) : Scan Unit :=
  modify fun s => { s with queue := s.queue ++ [⟨token, start, stop⟩] }

/-- Whether three equal marks of a document stand here, at the start of a line. -/
def atDocumentMark : Scan Bool := do
  let s ← get
  let three := s.rest.take 3
  return s.mark.column == 0 && (three == ['-', '-', '-'] || three == ['.', '.', '.'])
    && atBlankOrEnd s.rest[3]?

end Scan

end WebBaseline.Yaml
