import WebBaseline.Grammar.Automaton

/-!
# Tokens that can be mistaken for one another

Two tokens are compared by reading both at once through every text.  The
comparison tells whether one of them

* is preferred on a text that both match (`sameText`),
* can go on, past the end of a text of the other, with a character that the
  grammar also lets follow the other (`goesFurther`),
* matches texts of separators (`separators`).

Tables use this to decide which parse states may share a row and which tokens
error recovery looks for.
-/

namespace WebBaseline.Grammar

/-- How a token collides with another one. -/
structure Overlap where
  goesFurther : Bool := false
  separators : Bool := false
  sameText : Bool := false
deriving Inhabited, BEq

namespace Overlap

/-- The collisions of two tokens, in both directions. -/
structure Pair where
  left : Overlap := {}
  right : Overlap := {}

/-- Record a collision of the token `t`, one of `i` and the other token. -/
def Pair.note (i t : Nat) (f : Overlap → Overlap) (p : Pair) : Pair :=
  if t == i then { p with left := f p.left } else { p with right := f p.right }

variable (a : Automaton)

/-- One character of every class that the given positions and classes distinguish. -/
def representatives (next : List Nat) (classes : List CharClass) : List Nat :=
  let bounds (c : CharClass) : List Nat := c.intervals.flatMap fun i => [i.1, i.2 + 1]
  ((next.flatMap fun i => bounds (a.occurrence i).chars) ++ classes.flatMap bounds).eraseDups

/-- The tokens of a list of positions. -/
def owners (matched : List Nat) : List Nat :=
  (matched.map fun i => (a.occurrence i).token).eraseDups

/-- Note the tokens that are complete at a point; the result names the preferred one. -/
def noteComplete (i : Nat) (within : Bool) (pair : Pair) :
    List (Nat × Int) → Option (Nat × Int) → Pair × Option (Nat × Int)
  | [], best => (pair, best)
  | x :: rest, best =>
    let pair := if within then pair.note i x.1 fun o => { o with separators := true } else pair
    match best with
    | none => noteComplete i within pair rest (some x)
    | some b =>
      if b.1 == x.1 then noteComplete i within pair rest best
      else
        let winner := if a.prefersToken b x then b else x
        let pair := pair.note i winner.1 fun o => { o with sameText := true }
        noteComplete i within pair rest (some winner)

/-- Note what one more character shows.  A point that both tokens reach is to be explored. -/
def noteMove (i j : Nat) (follows : Nat → CharClass) (f : Automaton.Frontier)
    (best : Option (Nat × Int)) (acc : Pair × List (List Nat)) (x : Nat × Automaton.Move) :
    Pair × List (List Nat) :=
  let (pair, found) := acc
  let (c, m) := x
  let tokens := owners a m.matched
  let found' := if tokens.length < 2 then found else m.matched.mergeSort :: found
  match best with
  | none => (pair, found')
  | some b =>
    if tokens.contains b.1 then (pair, found')
    else if a.goesOn f b m then
      let t := tokens.headD i
      let other := if t == i then j else i
      let pair := if (follows other).contains c
        then pair.note i t fun o => { o with goesFurther := true } else pair
      (pair, found)
    else (pair, found)

/-- Explore the texts that both tokens may start. -/
def explore (i j : Nat) (follows : Nat → CharClass) : Nat → List (List Nat) → List (List Nat) →
    Pair → Pair
  | 0, _, _, pair => pair
  | _, [], _, pair => pair
  | fuel + 1, matched :: queue, seen, pair =>
    let f := if matched.isEmpty then a.startAt [i, j] else a.frontier matched
    let within := a.mayStandBetween f
    let (pair, best) := noteComplete a i within pair f.complete none
    let moves := (representatives a f.next [follows i, follows j]).filterMap fun c =>
      (a.move f c).map fun m => (c, m)
    let (pair, found) := moves.foldl (noteMove a i j follows f best) (pair, [])
    let fresh := found.eraseDups.filter fun s => !seen.contains s
    explore i j follows fuel (fresh ++ queue) (fresh ++ seen) pair

/-- A bound on the number of points that the exploration of one pair visits. -/
def exploreFuel : Nat := 4096

/-- The collisions of all pairs of tokens: entry `i`, `j` tells how `i` collides with `j`. -/
def table (following : Array (List Nat)) : Array (Array Overlap) :=
  let n := a.lexemes.size
  let startClass (t : Nat) : CharClass :=
    (a.starts.getD t []).foldl (fun c i => c ++ (a.occurrence i).chars) ⟨[]⟩
  let startClasses := (Array.range n).map startClass
  let follows := (Array.range n).map fun t =>
    (following.getD t []).foldl (fun c u => c ++ startClasses.getD u ⟨[]⟩) (⟨[]⟩ : CharClass)
  let follows := follows.map fun c => (⟨c.intervals.eraseDups⟩ : CharClass)
  let empty := Array.replicate n (Array.replicate n ({} : Overlap))
  let compare (m : Array (Array Overlap)) (x : Nat × Nat) : Array (Array Overlap) :=
    let (i, j) := x
    let pair := explore a i j (fun t => follows.getD t ⟨[]⟩) exploreFuel [[]] [] {}
    (m.modify i fun row => row.set! j pair.left).modify j fun row => row.set! i pair.right
  let pairs := (List.range n).flatMap fun i => (List.range i).map fun j => (i, j)
  pairs.foldl compare empty

/-- Whether having one token where the other is looked for could change what is read. -/
def collides (o : Overlap) : Bool := o.goesFurther || o.separators || o.sameText

end Overlap

end WebBaseline.Grammar
