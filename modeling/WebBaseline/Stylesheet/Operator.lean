import WebBaseline.Parsing.Engine
import WebBaseline.Stylesheet.Grammar

/-!
# Operators of selectors that take reading ahead

In a selector, a space may combine two selectors, and a colon may start a
pseudo-class.  Neither can be told by the next character alone: the space
counts if a selector follows, the colon if a block follows before the end of
the declaration that it would otherwise belong to.
-/

namespace WebBaseline.Stylesheet

open WebBaseline.Grammar WebBaseline.Parsing WebBaseline.Text

namespace Operator

/-- The number of the space that combines two selectors. -/
def descendant : Nat := 0

/-- The number of the colon that starts a pseudo-class. -/
def pseudoClass : Nat := 1

/-- The number of the token that only recovery asks for. -/
def recovery : Nat := 2

/-- Whether the character at an index is blank. -/
def blankAt (s : Source) (i : Nat) : Bool := CharClass.blank.contains (s.peek i)

/-- The first index that holds no blank. -/
def skipBlanks (s : Source) (i : Nat) : Nat :=
  s.skipWhile (fun c => CharClass.blank.contains c.toNat) i

/-- What a selector may start with, a colon apart. -/
def selectorStart : CharClass := .letter ++ .digit ++ .ofString "#.[-*&"

/-- What ends a declaration. -/
def declarationEnd : CharClass := .ofString ";\x7d"

/-- Whether a block opens before the declaration ends. -/
def blockAhead (s : Source) (i : Nat) : Bool :=
  let j := s.skipWhile (fun c => !(declarationEnd ++ .ofString "\x7b").contains c.toNat) i
  s.peek j == 0x7B

/-- Whether the colon before an index starts a pseudo-class: a block opens,
outside comments, or the text ends, before the declaration would end.  Only
characters after the first one are looked at. -/
def blockOrEndAhead (s : Source) : Nat → Bool → Nat → Bool
  | 0, _, _ => false
  | fuel + 1, inComment, i =>
    if s.atEnd i then true
    else if declarationEnd.contains (s.peek i) then false
    else
      let i := i + 1
      let here := Char.ofNat (s.peek i)
      if here == '\x7b' && !inComment then true
      else if here == '/' && !inComment then
        if s.peek (i + 1) == '*'.toNat then blockOrEndAhead s fuel true (i + 2)
        else blockOrEndAhead s fuel false (i + 1)
      else if here == '*' && inComment then
        if s.peek (i + 1) == '/'.toNat then blockOrEndAhead s fuel false (i + 2)
        else blockOrEndAhead s fuel true (i + 1)
      else blockOrEndAhead s fuel inComment i

/-- Read the space between two selectors; none if the blanks mean something else. -/
def readDescendant (s : Source) (start : Nat) : Option (ExternalReading Unit) :=
  let stop := skipBlanks s start
  let found : ExternalReading Unit := { external := descendant, start := stop, stop, state := none }
  let next := s.peek stop
  if selectorStart.contains next then some found
  else if next == ':'.toNat && !blankAt s (stop + 1) && blockAhead s (stop + 1) then some found
  else none

/-- Read the colon of a pseudo-class. -/
def readPseudoClass (s : Source) (i : Nat) : Option (ExternalReading Unit) :=
  let start := skipBlanks s i
  if s.peek start == ':'.toNat && s.peek (start + 1) != ':'.toNat &&
      blockOrEndAhead s (s.size + 1) false (start + 1) then
    some { external := pseudoClass, start, stop := start + 1, state := none }
  else none

/-- Read one of the operators that are asked for. -/
def read (_ : Option Unit) (asked : List Nat) (s : Source) (i : Nat) :
    Option (ExternalReading Unit) :=
  if asked.contains recovery then none
  else if blankAt s i && asked.contains descendant then readDescendant s i
  else if asked.contains pseudoClass then readPseudoClass s i
  else none

end Operator

/-- The language of style sheets. -/
def language : Parsing.Language Unit := Parsing.Language.ofGrammar grammar Operator.read

end WebBaseline.Stylesheet
