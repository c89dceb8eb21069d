import WebBaseline.Grammar.CharClass

/-!
# Grammars as their authors write them

A grammar is a list of named rules over *atoms*.  An atom is either a token,
given by the pattern of its text, or the name of another rule.  Rules combine
atoms by sequence, choice and repetition; a rule part may carry a precedence,
which settles conflicts between readings, or an alias, the kind under which
the part appears in a tree.
-/

namespace WebBaseline.Grammar

/-- The texts of a token: a regular expression over character classes. -/
inductive Pattern where
  | empty
  | one (chars : CharClass)
  | seq (first second : Pattern)
  | alt (left right : Pattern)
  | plus (body : Pattern)
deriving BEq, DecidableEq, Hashable, Inhabited

namespace Pattern

/-- Exactly the given text. -/
def text (s : String) : Pattern :=
  s.toList.foldr (fun c rest => .seq (.one (.single c)) rest) .empty

/-- The body or nothing. -/
def opt (body : Pattern) : Pattern := .alt body .empty

/-- Any number of repetitions. -/
def star (body : Pattern) : Pattern := .alt (.plus body) .empty

/-- At most `n` repetitions. -/
def upTo : Nat → Pattern → Pattern
  | 0, _ => .empty
  | n + 1, body => opt (.seq body (upTo n body))

/-- Exactly `n` repetitions. -/
def times : Nat → Pattern → Pattern
  | 0, _ => .empty
  | n + 1, body => .seq body (times n body)

/-- From `low` to `high` repetitions. -/
def between (low high : Nat) (body : Pattern) : Pattern :=
  .seq (times low body) (upTo (high - low) body)

/-- A sequence of patterns. -/
def seqs (parts : List Pattern) : Pattern := parts.foldr .seq .empty

instance : Append Pattern := ⟨.seq⟩

end Pattern

/-- A kind of token: its texts and how it competes with other tokens. -/
structure Lexeme where
  pattern : Pattern
  /-- The exact text, for a token that is spelled out in the grammar. -/
  spelling : Option String := none
  /-- An immediate token follows the previous one without any space. -/
  immediate : Bool := false
  precedence : Int := 0
deriving BEq, DecidableEq, Hashable, Inhabited

namespace Lexeme

/-- Among tokens of one precedence and length, those spelled out in the
grammar are preferred, then those that admit no space before them. -/
def specificity (l : Lexeme) : Nat :=
  (if l.spelling.isSome then 2 else 0) + (if l.immediate then 1 else 0)

end Lexeme

/-- The smallest parts of a rule. -/
inductive Atom where
  | token (lexeme : Lexeme)
  | rule (name : String)
deriving BEq, DecidableEq, Hashable, Inhabited

/-- To which side an operator of equal precedence groups. -/
inductive Associativity where
  | left
  | right
deriving BEq, DecidableEq, Hashable, Inhabited

/-- The kind under which a part appears in trees. -/
structure Alias where
  name : String
  named : Bool := true
deriving BEq, DecidableEq, Hashable, Inhabited

/-- The right-hand side of a rule, over parts of type `α`. -/
inductive Rule (α : Type) where
  | blank
  | atom (a : α)
  | seq (first second : Rule α)
  | choice (left right : Rule α)
  | repeat1 (body : Rule α)
  | ranked (precedence : Int) (associativity : Option Associativity) (body : Rule α)
  | aliased (shownAs : Alias) (body : Rule α)
deriving BEq, Inhabited

namespace Rule

/-- A sequence of rules. -/
def seqs {α : Type} : List (Rule α) → Rule α
  | [] => .blank
  | [r] => r
  | r :: rest => .seq r (seqs rest)

/-- A choice of rules. -/
def oneOf {α : Type} : List (Rule α) → Rule α
  | [] => .blank
  | [r] => r
  | r :: rest => .choice r (oneOf rest)

/-- The body or nothing. -/
def opt {α : Type} (body : Rule α) : Rule α := .choice body .blank

/-- Any number of repetitions. -/
def many {α : Type} (body : Rule α) : Rule α := .choice (.repeat1 body) .blank

/-- One or more bodies with separators between them. -/
def sepBy1 {α : Type} (separator body : Rule α) : Rule α :=
  .seq body (many (.seq separator body))

/-- Any number of bodies with separators between them. -/
def sepBy {α : Type} (separator body : Rule α) : Rule α := opt (sepBy1 separator body)

end Rule

/-- A reference to the rule of a name. -/
def rule (name : String) : Rule Atom := .atom (.rule name)

/-- A token spelled out. -/
def word (text : String) : Rule Atom :=
  .atom (.token { pattern := .text text, spelling := some text })

/-- A token given by its pattern. -/
def token (pattern : Pattern) : Rule Atom := .atom (.token { pattern })

/-- A part that appears in trees under another kind. -/
def as (name : String) (body : Rule Atom) : Rule Atom := .aliased { name } body

end WebBaseline.Grammar

namespace WebBaseline

open Grammar (Rule Atom)

/-- A grammar: its first rule is the one a whole text must match. -/
structure Grammar where
  rules : List (String × Rule Atom)
  /-- What may stand between any two tokens. -/
  extras : List Atom
  /-- Tokens that a hand-written reader recognises, in the order it numbers them. -/
  externals : List Atom := []
  /-- Rules that are replaced by their alternatives wherever they are used. -/
  inlined : List String := []
deriving Inhabited

end WebBaseline
