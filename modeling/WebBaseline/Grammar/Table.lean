import WebBaseline.Grammar.Table.Recovery
import WebBaseline.Grammar.Table.Joining

/-!
# Parse tables

`Table.build` computes the states of the canonical LR(1) automaton of a
grammar, adds the state of error recovery, and then makes the table small.
State 0 is where error recovery looks for the next token that some earlier
state can use, and state 1 is the start.
-/

namespace WebBaseline.Grammar

namespace Table

/-- Number the items of all variables; gives the items each variable starts with. -/
def addVariables (g : Normal) (items : Items) : Array (List Nat) × Items :=
  let addOne (v : Nat) (acc : List Nat × Items) (p : Production) : List Nat × Items :=
    let (i, items) := acc.2.addProduction (some v) p
    (if acc.1.contains i then acc.1 else acc.1 ++ [i], items)
  let addAll (acc : Array (List Nat) × Items) (v : Nat) : Array (List Nat) × Items :=
    let (starts, items) := (g.productionsAt v).foldl (addOne v) ([], acc.2)
    (acc.1.push starts, items)
  (List.range g.nonterminals.size).foldl addAll (#[], items)

/-- The parse table of a grammar. -/
def build (grammar : Grammar) : Table :=
  let g := grammar.normalize
  let automaton := Automaton.ofNormal g
  let isInlined (i : Nat) : Bool := match g.nonterminals[i]? with
    | some v => grammar.inlined.contains v.name
    | none => false
  let overlaps := Overlap.table automaton (following g isInlined)
  let (start, items) := ({} : Items).addProduction none [{ symbol := .variable 0 }]
  let (initial, items) := addVariables g items
  let context : Context :=
    { normal := g, items := items.items, initial, firsts := edges g List.head? }
  let base : Building := { kernels := #[[]], states := #[default] }
  let (_, base) := base.stateOf [(start, 1)]
  let built := expandAll context stateFuel base
  let tokens := recoveryTokens g overlaps (built.states.extract 1 built.states.size)
  let states := built.states.set! 0 (recoveryState g tokens)
  { normal := g
    automaton
    states := bypassUnits g (join g overlaps built.kernels states)
    aliasings := items.aliasings }

end Table

end WebBaseline.Grammar
