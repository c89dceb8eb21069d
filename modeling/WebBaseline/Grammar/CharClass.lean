/-!
# Character classes

A class is a finite union of intervals of code points.  Classes are what the
patterns of a grammar are built from; the null character belongs to no
complement, because it stands for the end of the text while a token is read.
-/

namespace WebBaseline.Grammar

/-- A set of characters, given as closed intervals of code points. -/
structure CharClass where
  intervals : List (Nat × Nat)
deriving BEq, DecidableEq, Hashable, Inhabited, Repr

namespace CharClass

/-- Membership of a code point. -/
def contains (s : CharClass) (c : Nat) : Bool :=
  s.intervals.any fun i => i.1 ≤ c && c ≤ i.2

/-- The class of the characters of a text. -/
def ofString (text : String) : CharClass :=
  ⟨text.toList.map fun c => (c.toNat, c.toNat)⟩

/-- The class of one character. -/
def single (c : Char) : CharClass :=
  ⟨[(c.toNat, c.toNat)]⟩

/-- The characters from `lo` to `hi`, both included. -/
def range (lo hi : Char) : CharClass :=
  ⟨[(lo.toNat, hi.toNat)]⟩

/-- The characters of either class. -/
def union (s t : CharClass) : CharClass :=
  ⟨s.intervals ++ t.intervals⟩

instance : Append CharClass := ⟨union⟩

/-- The last code point. -/
def lastCodePoint : Nat := 0x10FFFF

/-- The gaps between ascending intervals, from `next` on. -/
def gaps (next : Nat) : List (Nat × Nat) → List (Nat × Nat)
  | [] => if next ≤ lastCodePoint then [(next, lastCodePoint)] else []
  | (lo, hi) :: rest =>
    if next < lo then (next, lo - 1) :: gaps (max next (hi + 1)) rest
    else gaps (max next (hi + 1)) rest

/-- Every character outside the class except the null character. -/
def complement (s : CharClass) : CharClass :=
  ⟨gaps 1 (s.intervals.mergeSort fun a b => a.1 ≤ b.1)⟩

/-- Tab to carriage return, and the space. -/
def blank : CharClass := ⟨[(9, 13), (32, 32)]⟩

/-- The ten decimal digits. -/
def digit : CharClass := range '0' '9'

/-- The digits of base sixteen, in either case. -/
def hexDigit : CharClass := digit ++ range 'a' 'f' ++ range 'A' 'F'

/-- The letters of the Latin alphabet, in either case. -/
def letter : CharClass := range 'a' 'z' ++ range 'A' 'Z'

@[simp] theorem contains_union (s t : CharClass) (c : Nat) :
    (s ++ t).contains c = (s.contains c || t.contains c) := by
  show (union s t).contains c = _
  simp [union, contains, List.any_append]

end CharClass

end WebBaseline.Grammar
