import WebBaseline.Grammar.Table.Basic

/-!
# First and last tokens

Which tokens the text of a symbol can begin or end with, and hence which token
may come directly after which.  Sets of tokens are kept as the bits of a number.
-/

namespace WebBaseline.Grammar

namespace Table

/-- The tokens that a symbol's text can begin (or end) with. -/
def edge (g : Normal) (sets : Array Nat) (s : Symbol) : Nat :=
  match s with
  | .variable i => sets.getD i 0
  | _ => 1 <<< tokenId g s

/-- Grow the sets of all variables until nothing changes. -/
def growEdges (g : Normal) (pick : Production → Option Step) : Nat → Array Nat → Array Nat
  | 0, sets => sets
  | fuel + 1, sets =>
    let add (set : Nat) (p : Production) : Nat := match pick p with
      | some t => set ||| edge g sets t.symbol
      | none => set
    let grown := sets.mapIdx fun i set => (g.productionsAt i).foldl add set
    if grown == sets then sets else growEdges g pick fuel grown

/-- The first (or last) tokens of every variable. -/
def edges (g : Normal) (pick : Production → Option Step) : Array Nat :=
  growEdges g pick (g.nonterminals.size + 1) (Array.replicate g.nonterminals.size 0)

/-- For every token of the grammar, the tokens that may come directly after it. -/
def following (g : Normal) (isInlined : Nat → Bool) : Array (List Nat) :=
  let firsts := edges g List.head?
  let lasts := edges g List.getLast?
  let count := tokenCount g
  let pairs : List (Nat × Nat) := (List.range g.nonterminals.size).flatMap fun i =>
    if isInlined i then [] else
    (g.productionsAt i).flatMap fun p =>
      (p.zip (p.drop 1)).map fun (x, y) => (edge g lasts x.symbol, edge g firsts y.symbol)
  let addPair (sets : Array Nat) (x : Nat × Nat) : Array Nat :=
    (members count x.1).foldl (fun sets t => sets.modify t (· ||| x.2)) sets
  let direct := pairs.eraseDups.foldl addPair (Array.replicate count 0)
  let extraIds := g.extras.map (tokenId g)
  let extraSet := extraIds.foldl (fun set i => set ||| (1 <<< i)) 0
  let all := (1 <<< count) - 1
  let withExtras := extraIds.foldl (fun sets i => sets.set! i all) (direct.map (· ||| extraSet))
  (Array.range g.terminals.size).map fun t =>
    (members count (withExtras.getD (1 + t) 0)).filterMap fun u =>
      if 1 ≤ u && u ≤ g.terminals.size then some (u - 1) else none

end Table

end WebBaseline.Grammar
