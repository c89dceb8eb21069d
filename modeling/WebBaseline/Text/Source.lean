/-!
# Source texts and positions in them

A position is measured in characters, in bytes of the text's UTF-8 form, and
as a row with a byte column.  `Extent` serves both as a position and as the
size of a piece of text: the extent of a text is the position at its end.
-/

namespace WebBaseline.Text

/-- The size of a piece of text, or a position as the size of what precedes it.
A row ends with a line feed only; columns count bytes. -/
structure Extent where
  chars : Nat := 0
  bytes : Nat := 0
  rows : Nat := 0
  column : Nat := 0
deriving BEq, DecidableEq, Inhabited, Repr

namespace Extent

/-- The size of one text followed by another. -/
protected def add (a b : Extent) : Extent where
  chars := a.chars + b.chars
  bytes := a.bytes + b.bytes
  rows := a.rows + b.rows
  column := if b.rows = 0 then a.column + b.column else b.column

instance : Add Extent := ⟨Extent.add⟩

/-- The size of the text between two positions, the later one first. -/
protected def sub (a b : Extent) : Extent where
  chars := a.chars - b.chars
  bytes := a.bytes - b.bytes
  rows := a.rows - b.rows
  column := if a.rows = b.rows then a.column - b.column else a.column

instance : Sub Extent := ⟨Extent.sub⟩

/-- The size of one character. -/
def ofChar (c : Char) : Extent :=
  if c = '\n' then { chars := 1, bytes := 1, rows := 1, column := 0 }
  else { chars := 1, bytes := c.utf8Size, rows := 0, column := c.utf8Size }

theorem add_assoc (a b c : Extent) : a + b + c = a + (b + c) := by
  show Extent.add (Extent.add a b) c = Extent.add a (Extent.add b c)
  simp only [Extent.add, Extent.mk.injEq, Nat.add_assoc, true_and]
  by_cases hb : b.rows = 0 <;> by_cases hc : c.rows = 0 <;>
    simp [hb, hc, Nat.add_assoc]

end Extent

/-- A text with the position of each of its characters and of its end. -/
structure Source where
  chars : Array Char
  positions : Array Extent
deriving Inhabited

namespace Source

/-- The positions of the characters of a text that starts at `place`, and of its end. -/
def positionsFrom (place : Extent) : List Char → List Extent
  | [] => [place]
  | c :: rest => place :: positionsFrom (place + Extent.ofChar c) rest

/-- Lay out a text. -/
def ofString (text : String) : Source :=
  let step (acc : Array Extent × Extent) (c : Char) : Array Extent × Extent :=
    let next := acc.2 + Extent.ofChar c
    (acc.1.push next, next)
  let chars := text.toList
  { chars := chars.toArray
    positions := (chars.foldl step (#[{}], {})).1 }

/-- The number of characters. -/
def size (s : Source) : Nat := s.chars.size

/-- The code point at an index; zero at the end. -/
def peek (s : Source) (i : Nat) : Nat :=
  match s.chars[i]? with
  | some c => c.toNat
  | none => 0

/-- Whether the index is past the last character. -/
def atEnd (s : Source) (i : Nat) : Bool := s.chars.size ≤ i

/-- The first index, from the given one on, whose character fails a test, or the end. -/
def skipWhile (s : Source) (test : Char → Bool) (i : Nat) : Nat :=
  if h : i < s.chars.size then
    if test s.chars[i] then s.skipWhile test (i + 1) else i
  else i
termination_by s.chars.size - i

/-- The position of the character at an index. -/
def position (s : Source) (i : Nat) : Extent := s.positions.getD i {}

/-- The size of the text between two indices. -/
def between (s : Source) (start stop : Nat) : Extent := s.position stop - s.position start

/-- Where the text proper starts: after a byte order mark, if there is one. -/
def textStart (s : Source) : Nat := if s.peek 0 = 0xFEFF then 1 else 0

end Source

end WebBaseline.Text
