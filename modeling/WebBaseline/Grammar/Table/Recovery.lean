import WebBaseline.Grammar.Overlap
import WebBaseline.Grammar.Table.State

/-!
# The state of error recovery

Where no state has a use for the text, recovery looks for a token that some
earlier state can use.  Tokens that could be read by mistake are left out.
-/

namespace WebBaseline.Grammar

namespace Table

/-- The tokens that recovery looks for.  A token is left out if it could be
read in place of one that never collides with anything. -/
def recoveryTokens (g : Normal) (overlaps : Array (Array Overlap)) (states : Array State) :
    List Nat :=
  let n := g.terminals.size
  let overlap (i j : Nat) : Overlap := (overlaps.getD i #[]).getD j {}
  let sets := (states.toList.map fun s =>
    (List.range n).foldl (fun set t => if (s.actions.getD (1 + t) []).isEmpty then set
      else set ||| (1 <<< t)) 0).eraseDups
  let together := (Array.range n).map fun t =>
    sets.foldl (fun acc set => if set.testBit t then acc ||| set else acc) 0
  let coincide (i j : Nat) : Bool := (together.getD i 0).testBit j
  let longer (i j : Nat) : Bool :=
    ((overlap i j).goesFurther || (overlap i j).separators) && !(overlap j i).separators
  let free := (List.range n).filter fun i =>
    !(List.range n).any fun j => j != i && !coincide i j && longer i j
  (List.range n).filter fun i =>
    free.contains i || !free.any fun j => !coincide i j && (overlap i j).collides

/-- The recovery state. -/
def recoveryState (g : Normal) (tokens : List Nat) : State :=
  let count := tokenCount g
  let empty : Array (List Action) := Array.replicate count []
  let withTokens := tokens.foldl (fun a t => a.set! (1 + t) [.recover]) empty
  let addExternal (a : Array (List Action)) (i : Nat) : Array (List Action) :=
    match (g.externals[i]?).bind (·.terminal) with
    | some _ => a
    | none => a.set! (1 + g.terminals.size + i) [.recover]
  let withExternals := (List.range g.externals.size).foldl addExternal withTokens
  { actions := addExtras g (withExternals.set! 0 [.recover])
    gotos := Array.replicate g.nonterminals.size 0 }

end Table

end WebBaseline.Grammar
