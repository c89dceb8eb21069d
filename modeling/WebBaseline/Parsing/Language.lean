import WebBaseline.Grammar.Table

/-!
# Languages

A language is a parse table together with a hand-written reader for the tokens
that patterns cannot describe.  The reader keeps a state, for instance the
elements that are open, which travels with the tokens it produces.
-/

namespace WebBaseline.Parsing

open WebBaseline.Grammar WebBaseline.Text

/-- A token read by hand: which external token it is, its extent and the new state. -/
structure ExternalReading (σ : Type) where
  external : Nat
  start : Nat
  stop : Nat
  /-- The state after the token; none when the language keeps no state. -/
  state : Option σ

/-- The tokens that may come next in a state. -/
structure Mode where
  tokens : List Nat
  endAllowed : Bool
  externals : List Nat
deriving Inhabited

/-- A grammar's table with the reader of its external tokens. -/
structure Language (σ : Type) where
  table : Table
  modes : Array Mode
  readExternal : Option σ → List Nat → Source → Nat → Option (ExternalReading σ)

namespace Language

/-- The tokens that some state admits. -/
def modeOf (t : Table) (s : State) : Mode :=
  let g := t.normal
  let admits (id : Nat) : Bool := !(s.actions.getD id []).isEmpty
  { tokens := (List.range g.terminals.size).filter fun i => admits (1 + i)
    endAllowed := admits 0
    externals := (List.range g.externals.size).filter fun i =>
      admits (Table.tokenId g (.external i)) }

/-- The language of a grammar. -/
def ofGrammar {σ : Type} (g : Grammar)
    (readExternal : Option σ → List Nat → Source → Nat → Option (ExternalReading σ)) : Language σ :=
  let table := Table.build g
  { table, modes := table.states.map (modeOf table), readExternal }

variable {σ : Type} (l : Language σ)

/-- The number of tokens. -/
def tokenCount : Nat := Table.tokenCount l.table.normal

/-- The actions of a state for a token. -/
def actions (state token : Nat) : List Action :=
  match l.table.states[state]? with
  | some s => s.actions.getD token []
  | none => []

/-- The state after a token; 0 if there is none. -/
def afterToken (state token : Nat) : Nat :=
  match (l.actions state token).getLast? with
  | some (.shift t _) => t
  | some .shiftExtra => state
  | _ => 0

/-- The state after a variable; 0 if there is none. -/
def afterVariable (state head : Nat) : Nat :=
  match l.table.states[state]? with
  | some s => s.gotos.getD head 0
  | none => 0

/-- The symbol of a token number. -/
def symbolOf (token : Nat) : Symbol :=
  let n := l.table.normal.terminals.size
  if token ≤ n then .terminal (token - 1) else .external (token - 1 - n)

/-- The kind of a symbol's nodes and whether they show in trees. -/
def appearance (s : Symbol) : String × Bool :=
  let g := l.table.normal
  match g.defaultAliases.find? (·.1 == s) with
  | some (_, a) => (a.name, true)
  | none =>
    let own : Option (String × Visibility) := match s with
      | .terminal i => (g.terminals[i]?).map fun t => (t.name, t.visibility)
      | .external i => (g.externals[i]?).map fun t => (t.name, t.visibility)
      | .variable i => (g.nonterminals[i]?).map fun v => (v.name, v.visibility)
    match own with
    | some (name, v) => (name, v.shown)
    | none => ("", false)

/-- The aliases of the steps of a production. -/
def aliasing (number : Nat) : List (Option Alias) := l.table.aliasings.getD number []

end Language

end WebBaseline.Parsing
