import WebBaseline.Grammar.Normal
import WebBaseline.Text.Source

/-!
# Reading tokens

The patterns of all tokens are compiled into one position automaton: a
position is an occurrence of a character class in a pattern, and knows which
positions may come after it.  A token is read by following all positions that
fit at once and keeping the last place where some token was complete.

Between tokens stand separators.  They are part of the pattern of every token
that is not immediate, and a character read only as a separator moves the
start of the token behind it.

When a token is complete and another could go on, `Automaton.goesOn` decides:
a higher precedence wins, a separator is never read on behalf of a complete
token, and otherwise the longer reading is tried.
-/

namespace WebBaseline.Grammar

open WebBaseline.Text

/-- An occurrence of a character class in the pattern of a token. -/
structure Position where
  chars : CharClass
  token : Nat
  separator : Bool
  precedence : Int
  /-- Whether a token may end after this character. -/
  final : Bool := false
  /-- The positions that may come next. -/
  follow : List Nat := []
deriving Inhabited

/-- The positions of all tokens, and for each token where it can start. -/
structure Automaton where
  positions : Array Position
  starts : Array (List Nat)
  lexemes : Array Lexeme
deriving Inhabited

/-- What is known of a part of a pattern while positions are numbered. -/
structure Fragment where
  nullable : Bool
  first : List Nat
  last : List Nat

/-- Let some positions come directly after some others. -/
def linkPositions (before after : List Nat) (ps : Array Position) : Array Position :=
  before.foldl (fun ps i => ps.modify i fun p => { p with follow := p.follow ++ after }) ps

/-- Let a token end after some positions. -/
def endPositions (last : List Nat) (ps : Array Position) : Array Position :=
  last.foldl (fun ps i => ps.modify i fun p => { p with final := true }) ps

/-- Number the positions of a pattern. -/
def Pattern.compile (make : CharClass → Position) : Pattern → StateM (Array Position) Fragment
  | .empty => pure { nullable := true, first := [], last := [] }
  | .one c => do
    let i := (← get).size
    modify (·.push (make c))
    pure { nullable := false, first := [i], last := [i] }
  | .seq a b => do
    let x ← compile make a
    let y ← compile make b
    modify (linkPositions x.last y.first)
    pure
      { nullable := x.nullable && y.nullable
        first := if x.nullable then x.first ++ y.first else x.first
        last := if y.nullable then x.last ++ y.last else y.last }
  | .alt a b => do
    let x ← compile make a
    let y ← compile make b
    pure
      { nullable := x.nullable || y.nullable
        first := x.first ++ y.first
        last := x.last ++ y.last }
  | .plus a => do
    let x ← compile make a
    modify (linkPositions x.last x.first)
    pure x

/-- Number the positions of a token with the separators before it. -/
def Automaton.addToken (separators : List Pattern) (a : Automaton) (l : Lexeme) : Automaton :=
  let token := a.lexemes.size
  let build : StateM (Array Position) (List Nat) := do
    let gap ←
      if l.immediate || separators.isEmpty then pure { nullable := true, first := [], last := [] }
      else
        let any := separators.foldr (fun p rest => Pattern.alt p rest) (separators.headD .empty)
        (Pattern.star any).compile fun chars => { chars, token, separator := true, precedence := 0 }
    let main ← l.pattern.compile fun chars =>
      { chars, token, separator := false, precedence := l.precedence }
    modify (linkPositions gap.last main.first)
    modify (endPositions main.last)
    pure (gap.first ++ main.first)
  let (first, positions) := Id.run (build.run a.positions)
  { positions
    starts := a.starts.push first.eraseDups
    lexemes := a.lexemes.push l }

/-- The automaton of the tokens of a grammar. -/
def Automaton.ofNormal (g : Normal) : Automaton :=
  let empty : Automaton := { positions := #[], starts := #[], lexemes := #[] }
  let a := g.terminals.foldl (fun a t => a.addToken g.separators t.lexeme) empty
  { a with positions := a.positions.map fun p => { p with follow := p.follow.eraseDups } }

namespace Automaton

/-- A point inside a text: which tokens are complete and what may come next. -/
structure Frontier where
  /-- The complete tokens, each with its precedence. -/
  complete : List (Nat × Int)
  next : List Nat

/-- One more character read. -/
structure Move where
  matched : List Nat
  /-- The character separates tokens in every reading. -/
  separator : Bool
  precedence : Int

variable (a : Automaton)

/-- The position of a number. -/
def occurrence (i : Nat) : Position := a.positions.getD i default

/-- Add to a list the elements that it lacks. -/
def addNew (xs : List Nat) (ys : List Nat) : List Nat :=
  ys.foldl (fun acc y => if acc.contains y then acc else y :: acc) xs

/-- The point after the positions that have just been matched. -/
def frontier (matched : List Nat) : Frontier where
  complete := (matched.filter fun i => (a.occurrence i).final).map fun i =>
    let token := (a.occurrence i).token
    (token, ((a.lexemes[token]?).map (·.precedence)).getD 0)
  next := matched.foldl (fun acc i => addNew acc (a.occurrence i).follow) []

/-- The point before a text in which the given tokens may be read. -/
def startAt (tokens : List Nat) : Frontier where
  complete := []
  next := (tokens.flatMap fun t => a.starts.getD t []).eraseDups

/-- Whether the first of two complete tokens of one text is preferred. -/
def prefersToken (x y : Nat × Int) : Bool :=
  if x.2 != y.2 then y.2 < x.2
  else
    let rank (t : Nat) : Nat := ((a.lexemes[t]?).map (·.specificity)).getD 0
    if rank x.1 != rank y.1 then rank y.1 < rank x.1
    else x.1 < y.1

/-- The preferred one of the complete tokens. -/
def preferred (complete : List (Nat × Int)) : Option (Nat × Int) :=
  complete.foldl (fun best x => match best with
    | none => some x
    | some b => if a.prefersToken b x then some b else some x) none

/-- The positions that a character matches. -/
def move (f : Frontier) (c : Nat) : Option Move :=
  match f.next.filter fun i => (a.occurrence i).chars.contains c with
  | [] => none
  | i :: rest =>
    let matched := i :: rest
    some
      { matched
        separator := matched.all fun i => (a.occurrence i).separator
        precedence := rest.foldl (fun p i => max p (a.occurrence i).precedence)
          (a.occurrence i).precedence }

/-- Whether some next character may be read as a separator. -/
def mayStandBetween (f : Frontier) : Bool := f.next.any fun i => (a.occurrence i).separator

/-- Whether to read on although a token is complete. -/
def goesOn (f : Frontier) (complete : Nat × Int) (m : Move) : Bool :=
  if m.precedence < complete.2 then false
  else if m.precedence == complete.2 then
    !m.separator &&
      !(a.mayStandBetween f && !m.matched.any fun i => (a.occurrence i).token == complete.1)
  else true

/-- A token read: its number (`none` for the end of the text) and its extent. -/
structure Reading where
  token : Option Nat
  start : Nat
  stop : Nat

/-- Follow the text from index `i` on.  The result is the last complete token,
where the token being read starts, and the index that reading stopped at. -/
def follow (s : Source) (endAllowed : Bool) (f : Frontier) (start i : Nat) (blank : Bool)
    (found : Option Reading) : Option Reading × Nat × Nat :=
  let best := a.preferred f.complete
  let found := match best with
    | some (t, _) => some { token := some t, start, stop := i }
    | none => found
  if h : i < s.chars.size then
    match a.move f s.chars[i].toNat with
    | none => (found, start, i)
    | some m =>
      let stays := match best with
        | some b => a.goesOn f b m
        | none => true
      if stays then
        follow s endAllowed (a.frontier m.matched) (if m.separator then i + 1 else start) (i + 1)
          (blank && m.separator) found
      else (found, start, i)
  else if endAllowed && blank then (some { token := none, start, stop := i }, start, i)
  else (found, start, i)
termination_by s.chars.size - i

end Automaton

end WebBaseline.Grammar
