import WebBaseline.Grammar.Automaton

/-!
# Actions and states

A state of a parse table gives the actions for every token and the successor
for every variable.  Tokens are numbered from 1, and 0 is the end of the text;
external tokens follow the tokens of the grammar, and variables follow those.
-/

namespace WebBaseline.Grammar

/-- What to do with a token in a state. -/
inductive Action where
  | shift (state : Nat) (repetition : Bool)
  /-- Keep the token in the tree without leaving the state. -/
  | shiftExtra
  | reduce (head count aliasing : Nat)
  | accept
  | recover
deriving BEq, DecidableEq, Hashable, Inhabited

/-- The actions of a state by token, and its successors by variable (0 for none). -/
structure State where
  actions : Array (List Action)
  gotos : Array Nat
deriving Inhabited

/-- A grammar with its parse table. -/
structure Table where
  normal : Normal
  automaton : Automaton
  states : Array State
  /-- The aliases of the steps of a production, by the number that reductions carry. -/
  aliasings : Array (List (Option Alias))
deriving Inhabited

namespace Table

/-- How many tokens there are, with the end of the text and the external tokens. -/
def tokenCount (g : Normal) : Nat := 1 + g.terminals.size + g.externals.size

/-- The number of a token. -/
def tokenId (g : Normal) : Symbol → Nat
  | .terminal i => 1 + i
  | .external i =>
    match (g.externals[i]?).bind (·.terminal) with
    | some t => 1 + t
    | none => 1 + g.terminals.size + i
  | .variable i => tokenCount g + i

/-- The numbers in a set that is kept as the bits of a number. -/
def members (bound set : Nat) : List Nat :=
  (List.range bound).filter fun i => set.testBit i

end Table

end WebBaseline.Grammar
