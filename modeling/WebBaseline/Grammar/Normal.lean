import WebBaseline.Grammar.Rule

/-!
# Normal form of a grammar

A grammar is brought into a form that a table can be computed from:

* every token is numbered, equal tokens once, in the order in which the rules
  mention them (`Normal.terminals`);
* a repetition becomes an auxiliary variable `X → X X | body`;
* every rule becomes a list of productions, each a list of steps that carry
  precedence, associativity and alias;
* an alias that a symbol has wherever it occurs becomes that symbol's own kind;
* inlined rules are replaced by their alternatives.
-/

namespace WebBaseline.Grammar

/-- A numbered symbol: a token, a token read by hand, or a variable. -/
inductive Symbol where
  | terminal (index : Nat)
  | external (index : Nat)
  | variable (index : Nat)
deriving BEq, DecidableEq, Hashable, Inhabited

/-- How a symbol shows in trees. -/
inductive Visibility where
  | named
  | anonymous
  | hidden
  /-- Made by the normal form itself; hidden too. -/
  | auxiliary
deriving BEq, DecidableEq, Inhabited

/-- Whether nodes of the symbol appear in trees. -/
def Visibility.shown : Visibility → Bool
  | .named | .anonymous => true
  | .hidden | .auxiliary => false

/-- A rule whose name starts with an underscore is hidden. -/
def Visibility.ofName (name : String) : Visibility :=
  if name.startsWith "_" then .hidden else .named

/-- A numbered token. -/
structure Terminal where
  name : String
  visibility : Visibility
  lexeme : Lexeme
  /-- In how many places of the rules the token stands. -/
  uses : Nat := 1
deriving Inhabited

/-- A token read by hand. -/
structure External where
  name : String
  visibility : Visibility
  /-- The token of the grammar that it coincides with. -/
  terminal : Option Nat := none
deriving Inhabited

/-- One symbol of a production with what the rule says about it. -/
structure Step where
  symbol : Symbol
  precedence : Int := 0
  associativity : Option Associativity := none
  shownAs : Option Alias := none
deriving BEq, DecidableEq, Hashable, Inhabited

/-- The steps of one alternative of a rule. -/
abbrev Production := List Step

/-- A rule as its alternatives. -/
structure Variable where
  name : String
  visibility : Visibility
  productions : List Production
deriving Inhabited

/-- A grammar ready for table construction. -/
structure Normal where
  terminals : Array Terminal
  externals : Array External
  nonterminals : Array Variable
  extras : List Symbol
  /-- Extras that have no name: the texts between tokens. -/
  separators : List Pattern
  defaultAliases : List (Symbol × Alias)
deriving Inhabited

namespace Normal

/-- The productions of a variable. -/
def productionsAt (g : Normal) (i : Nat) : List Production :=
  ((g.nonterminals[i]?).map (·.productions)).getD []

/-! ### Numbering tokens -/

/-- A part of a rule whose tokens are numbered already. -/
inductive Part where
  | symbol (s : Symbol)
  | named (name : String)
deriving BEq, Inhabited

/-- The tokens met so far, and how many the current rule has added. -/
structure Numbering where
  terminals : Array Terminal := #[]
  addedByRule : Nat := 0
deriving Inhabited

/-- The number of a token; a new one is named by its spelling or after the rule. -/
def Numbering.add (ruleName : String) (n : Numbering) (l : Lexeme) : Nat × Numbering :=
  match n.terminals.findIdx? (·.lexeme == l) with
  | some i =>
    (i, { n with terminals := n.terminals.modify i fun t => { t with uses := t.uses + 1 } })
  | none =>
    let added := n.addedByRule + 1
    let (name, visibility) := match l.spelling with
      | some s => (s, Visibility.anonymous)
      | none => (s!"{ruleName}_token{added}", Visibility.auxiliary)
    (n.terminals.size,
      { terminals := n.terminals.push { name, visibility, lexeme := l }, addedByRule := added })

/-- Number the tokens of a rule from left to right. -/
def numberTokens (ruleName : String) : Rule Atom → StateM Numbering (Rule Part)
  | .blank => pure .blank
  | .atom (.rule name) => pure (.atom (.named name))
  | .atom (.token l) => do
    let i ← modifyGet (·.add ruleName l)
    pure (.atom (.symbol (.terminal i)))
  | .seq a b => return .seq (← numberTokens ruleName a) (← numberTokens ruleName b)
  | .choice a b => return .choice (← numberTokens ruleName a) (← numberTokens ruleName b)
  | .repeat1 a => return .repeat1 (← numberTokens ruleName a)
  | .ranked p s a => return .ranked p s (← numberTokens ruleName a)
  | .aliased n a => return .aliased n (← numberTokens ruleName a)

/-- Number the tokens of a rule of the grammar. -/
def numberRule (x : String × Rule Atom) : StateM Numbering (String × Rule Part) := do
  modify fun n => { n with addedByRule := 0 }
  return (x.1, ← numberTokens x.1 x.2)

/-- Number an external token that is also read by its pattern. -/
def numberExternal : Atom → StateM Numbering External
  | .rule name => return { name, visibility := .ofName name }
  | .token l => do
    let i ← modifyGet (·.add "external" l)
    return { name := l.spelling.getD "", visibility := .anonymous, terminal := some i }

/-- Replace the names of rules by symbols. -/
def resolve (lookup : String → Symbol) : Rule Part → Rule Symbol
  | .blank => .blank
  | .atom (.symbol s) => .atom s
  | .atom (.named name) => .atom (lookup name)
  | .seq a b => .seq (resolve lookup a) (resolve lookup b)
  | .choice a b => .choice (resolve lookup a) (resolve lookup b)
  | .repeat1 a => .repeat1 (resolve lookup a)
  | .ranked p s a => .ranked p s (resolve lookup a)
  | .aliased n a => .aliased n (resolve lookup a)

/-! ### Repetitions -/

/-- The auxiliary variables made so far, with the bodies that they repeat. -/
structure Repetitions where
  /-- The number of the first auxiliary variable. -/
  first : Nat
  made : Array (String × Rule Symbol) := #[]
  bodies : List (Rule Symbol × Symbol) := []

/-- Replace every repetition by an auxiliary variable, equal ones by the same. -/
def expandRepetitions (ruleName : String) : Rule Symbol → StateM Repetitions (Rule Symbol)
  | .blank => pure .blank
  | .atom a => pure (.atom a)
  | .seq a b => return .seq (← expandRepetitions ruleName a) (← expandRepetitions ruleName b)
  | .choice a b => return .choice (← expandRepetitions ruleName a) (← expandRepetitions ruleName b)
  | .ranked p s a => return .ranked p s (← expandRepetitions ruleName a)
  | .aliased n a => return .aliased n (← expandRepetitions ruleName a)
  | .repeat1 a => do
    let body ← expandRepetitions ruleName a
    let state ← get
    match state.bodies.find? (·.1 == body) with
    | some (_, s) => pure (.atom s)
    | none =>
      let s := Symbol.variable (state.first + state.made.size)
      let doubled := Rule.choice (.seq (.atom s) (.atom s)) body
      set { state with
        made := state.made.push (s!"{ruleName}_repeat", doubled)
        bodies := (body, s) :: state.bodies }
      pure (.atom s)

/-! ### Productions -/

/-- What the enclosing parts of a rule say about a step. -/
structure Marks where
  precedence : Int := 0
  associativity : Option Associativity := none
  shownAs : Option Alias := none

/-- Give the last step of a production other marks. -/
def remarkLast (mark : Step → Step) (p : Production) : Production :=
  match p.getLast? with
  | none => p
  | some s => p.dropLast ++ [mark s]

/-- The alternatives of a rule.  A precedence holds for all steps of its part,
but the step that closes a part in the middle of a production takes the
marks of what encloses the part: it is they that rank the reading so far. -/
def alternatives (marks : Marks) (atEnd : Bool) : Rule Symbol → List Production
  | .blank => [[]]
  | .atom s =>
    [[{ symbol := s, precedence := marks.precedence, associativity := marks.associativity,
        shownAs := marks.shownAs }]]
  | .seq a b =>
    let second := alternatives marks atEnd b
    (alternatives marks false a).flatMap fun p => second.map (p ++ ·)
  | .choice a b => alternatives marks atEnd a ++ alternatives marks atEnd b
  | .repeat1 a => alternatives marks atEnd a
  | .aliased n a => alternatives { marks with shownAs := some n } atEnd a
  | .ranked p s a =>
    let inner := { marks with precedence := p, associativity := s.or marks.associativity }
    let found := alternatives inner atEnd a
    if atEnd then found
    else found.map <| remarkLast fun t =>
      { t with
        precedence := marks.precedence
        associativity := if s.isSome then marks.associativity else t.associativity }

/-- The productions of a rule, each once. -/
def productionsOf (r : Rule Symbol) : List Production :=
  (alternatives {} true r).eraseDups

/-! ### Aliases that a symbol always has -/

/-- The steps of all variables but those that only inlined rules would show. -/
def allSteps (all : Array Variable) : List Step :=
  all.toList.flatMap fun v => v.productions.flatten

/-- The most frequent alias of a symbol, if the symbol never stands without one. -/
def usualAlias (steps : List Step) (extras : List Symbol) (s : Symbol) : Option Alias :=
  let uses := steps.filter (·.symbol == s)
  if extras.contains s || uses.any (·.shownAs.isNone) then none
  else
    let names := (uses.filterMap (·.shownAs)).eraseDups
    let count (a : Alias) := uses.countP (·.shownAs == some a)
    names.foldl (fun best a => match best with
      | none => some a
      | some b => if count b < count a then some a else some b) none

/-- Drop the aliases that only repeat a symbol's usual one.  An alias stays where
another alternative of the same rule needs it at the same place. -/
def dropUsual (usual : Symbol → Option Alias) (productions : List Production) : List Production :=
  let needed (p : Production) (j : Nat) (a : Alias) : Bool :=
    productions.any fun q => q != p && match q[j]? with
      | some t => t.shownAs == some a && usual t.symbol != some a
      | none => false
  productions.map fun p => p.mapIdx fun j t =>
    match t.shownAs with
    | some a => if usual t.symbol == some a && !needed p j a then { t with shownAs := none } else t
    | none => t

/-! ### Inlining -/

/-- The alternatives of a production after its inlined variables are replaced. -/
def inlineSteps (inlined : Nat → Option (List Production)) : Nat → Production → List Production
  | 0, p => [p]
  | _, [] => [[]]
  | fuel + 1, t :: rest =>
    let tails := inlineSteps inlined fuel rest
    match t.symbol with
    | .variable i =>
      match inlined i with
      | some bodies =>
        let bodies := bodies.flatMap (inlineSteps inlined fuel)
        let bodies := bodies.map <| remarkLast fun s =>
          { s with
            precedence := if s.precedence == 0 then t.precedence else s.precedence
            associativity := s.associativity.or t.associativity }
        bodies.flatMap fun b => tails.map (b ++ ·)
      | none => tails.map (t :: ·)
    | _ => tails.map (t :: ·)

end Normal

open WebBaseline.Grammar.Normal in
/-- The normal form of a grammar. -/
def normalize (g : Grammar) : Normal :=
  -- number the tokens
  let (numbered, numbering) := (g.rules.mapM numberRule).run {}
  let (externals, numbering) := (g.externals.mapM numberExternal).run numbering
  -- a rule that is one token used nowhere else gives the token its name
  let lone (name : String) (body : Rule Part) : Option Nat :=
    match body with
    | .atom (.symbol (.terminal i)) =>
      match numbering.terminals[i]? with
      | some t =>
        if t.uses == 1 && (t.visibility == .auxiliary || Visibility.ofName name != .hidden)
        then some i else none
      | none => none
    | _ => none
  let renamed := (numbered.drop 1).filterMap fun (name, body) =>
    (lone name body).map fun i => (name, i)
  let kept := numbered.take 1 ++ (numbered.drop 1).filter fun (name, body) =>
    (lone name body).isNone
  let rename (ts : Array Terminal) (x : String × Nat) : Array Terminal :=
    ts.modify x.2 fun t => { t with name := x.1, visibility := .ofName x.1 }
  let terminals := renamed.foldl rename numbering.terminals
  let lookup (name : String) : Symbol :=
    match renamed.find? (·.1 == name) with
    | some (_, i) => .terminal i
    | none => match kept.findIdx? (·.1 == name) with
      | some i => .variable i
      | none => .external ((externals.findIdx? (·.name == name)).getD 0)
  -- extras are named tokens or plain separators
  let extras := g.extras.filterMap fun a => match a with
    | .rule name => some (lookup name)
    | .token _ => none
  let separators := g.extras.filterMap fun a => match a with
    | .token l => some l.pattern
    | .rule _ => none
  -- expand repetitions, then list alternatives
  let expand (x : String × Rule Part) : StateM Repetitions (String × Rule Symbol) :=
    return (x.1, ← expandRepetitions x.1 (resolve lookup x.2))
  let (bodies, repetitions) := (kept.mapM expand).run { first := kept.length }
  let written := bodies.map fun (name, body) =>
    ({ name, visibility := .ofName name, productions := productionsOf body } : Variable)
  let auxiliary := repetitions.made.toList.map fun (name, body) =>
    ({ name, visibility := .auxiliary, productions := productionsOf body } : Variable)
  let all := (written ++ auxiliary).toArray
  let isInlined (i : Nat) : Bool := (all[i]?).any fun v => g.inlined.contains v.name
  -- usual aliases
  let steps := allSteps all
  let candidates := (steps.map (·.symbol)).eraseDups.filter fun s => match s with
    | .variable i => !isInlined i
    | _ => true
  let usual := candidates.filterMap fun s => (usualAlias steps extras s).map (s, ·)
  let usualOf (s : Symbol) : Option Alias := (usual.find? (·.1 == s)).map (·.2)
  let all := all.map fun (v : Variable) =>
    { v with productions := dropUsual usualOf v.productions }
  -- inline
  let inlinedBodies (i : Nat) : Option (List Production) :=
    if isInlined i then (all[i]?).map (·.productions) else none
  let inlineInto (i : Nat) (v : Variable) : Variable :=
    if isInlined i then v
    else { v with
      productions := (v.productions.flatMap fun p =>
        inlineSteps inlinedBodies (p.length + all.size + 1) p).eraseDups }
  { terminals
    externals := externals.toArray
    nonterminals := all.mapIdx inlineInto
    extras
    separators
    defaultAliases := usual }

end WebBaseline.Grammar
