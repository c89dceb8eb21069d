import WebBaseline.Parsing.Lookahead
import WebBaseline.Parsing.Recovery

/-!
# Parsing

A text is parsed by following the table.  Where no version of the stack can use
the next token, the best one is repaired.  Versions that fall far behind are
dropped, and every text ends in a tree.
-/

namespace WebBaseline.Parsing

open WebBaseline.Grammar WebBaseline.Text

variable {σ : Type} [BEq σ]

/-- Follow the table with a token until it is read, accepted or found unusable. -/
def Run.advanceWith (r : Run σ) (v : Nat) (lookahead : Subtree σ) : Nat → Run σ
  | 0 => { r with stack := r.stack.halt v }
  | fuel + 1 =>
    let state := r.stack.state v
    let isError := lookahead.info.label == .error
    let id := match lookahead.info.label with | .token id => id | _ => 0
    let actions := if isError then [] else r.language.actions state id
    let shift (r : Run σ) (next : Nat) (extra : Bool) : Run σ :=
      let stack := r.stack.push v (some (lookahead.withExtra extra)) next
      { r with stack := match lookahead.info.external with
          | some s => stack.modifyVersion v ({ · with external := s })
          | none => stack }
    let rec act (reduced : Bool) (last : Option Nat) (r : Run σ) :
        List Action → Run σ × Bool × Bool × Option Nat
      | [] => (r, false, reduced, last)
      | .shift next repetition :: rest =>
        if repetition then act reduced last r rest else (shift r next false, true, reduced, last)
      | .shiftExtra :: _ => (shift r state true, true, reduced, last)
      | .reduce h n g :: rest =>
        let (created, r) := r.reduce v h n g
        act true (created.or last) r rest
      | .accept :: _ => (r.accept v lookahead, true, reduced, last)
      | .recover :: _ => (r.recover v lookahead, true, reduced, last)
    match act false none r actions with
    | (r, true, _, _) => r
    | (r, false, _, some w) =>
      advanceWith { r with stack := r.stack.renumber w v } v lookahead fuel
    | (r, false, true, none) => { r with stack := r.stack.halt v }
    | (r, false, false, none) =>
      if state == recoveryState then r.recover v lookahead
      else { r with stack := r.stack.modifyVersion v fun x =>
          { x with activity := .paused, lookahead := some lookahead } }

/-- Read one token of a version and act on it. -/
def Run.advance (r : Run σ) (v : Nat) : Run σ :=
  r.advanceWith v (r.read v) (4 * r.stack.nodes.size + 1000)

/-- Advance a version until it is ahead of the furthest position. -/
def Run.advancePast (r : Run σ) (v : Nat) (furthest : Nat) : Nat → Run σ × Nat
  | 0 => ({ r with stack := r.stack.halt v }, furthest)
  | fuel + 1 =>
    if r.stack.isActive v then
      let r := r.advance v
      let position := (r.stack.position v).bytes
      if furthest < position || (0 < v && position == furthest) then (r, position)
      else r.advancePast v furthest fuel
    else (r, furthest)

/-- Compare a version, whose standing is given, with those before it; the first
number is the version, the second the one it is compared with next. -/
def Stack.compete (s : Stack σ) (standing : Standing) (i : Nat) : Nat → Nat → Option Nat × Stack σ
  | 0, _ => (some i, s)
  | fuel + 1, j =>
    if i ≤ j then (some i, s)
    else
      let (earlier, s) := s.standing j
      match earlier.compare standing with
      | .takeLeft => (none, s.removeVersion i)
      | .preferLeft | .none => match s.merge j i with
        | some s => (none, s)
        | none => s.compete standing i fuel (j + 1)
      | .preferRight => match s.merge j i with
        | some s => (none, s)
        | none => (s.swap i j).compete standing i fuel (j + 1)
      | .takeRight => (s.removeVersion j).compete standing (i - 1) fuel j

/-- Drop, join and order versions; gives the least cost of an undamaged one. -/
def Stack.order (s : Stack σ) : Nat → Nat → Option Nat → Option Nat × Stack σ
  | 0, _, least => (least, s)
  | fuel + 1, i, least =>
    if s.versions.size ≤ i then (least, s)
    else if (s.version i).activity == .halted then (s.removeVersion i).order fuel i least
    else
      let (mine, s) := s.standing i
      let least := if mine.damaged then least
        else match least with
          | none => some mine.cost
          | some c => some (min c mine.cost)
      match s.compete mine i (2 * s.versions.size + 2) 0 with
      | (none, s) => s.order fuel i least
      | (some i, s) => s.order fuel (i + 1) least

/-- Resume the best paused version if no version is left that reads on. -/
def Run.resume (r : Run σ) : Nat → Nat → Nat → Bool → Option Nat → Option Nat × Run σ
  | 0, _, _, _, least => (least, r)
  | fuel + 1, i, count, running, least =>
    if count ≤ i then (least, r)
    else
      let x := r.stack.version i
      if x.activity == .paused then
        if !running && r.accepted < maxVersions then
          let least := some (r.stack.errorCost i)
          let lookahead := x.lookahead.getD default
          let stack := r.stack.modifyVersion i fun x =>
            { x with activity := .active, lookahead := none }
          let r := { r with stack }.handleError i lookahead
          r.resume fuel (i + 1) count true least
        else { r with stack := r.stack.removeVersion i }.resume fuel i (count - 1) running least
      else r.resume fuel (i + 1) count true least

/-- Keep the most promising versions, and repair the best one if none reads on. -/
def Run.condense (r : Run σ) : Option Nat × Run σ :=
  let fuel := 4 * (r.stack.versions.size + 1) * (r.stack.versions.size + 1)
  let (least, stack) := r.stack.order fuel 0 none
  let stack := { stack with versions := stack.versions.extract 0 maxVersions }
  { r with stack }.resume (2 * stack.versions.size + 2) 0 stack.versions.size false least

/-- Advance all versions, one after the other. -/
def Run.advanceAll (r : Run σ) (furthest : Nat) : Nat → Nat → Run σ × Nat
  | 0, _ => (r, furthest)
  | fuel + 1, v =>
    if r.stack.versions.size ≤ v then (r, furthest)
    else
      let (r, furthest) := r.advancePast v furthest (r.stack.nodes.size + 1000)
      r.advanceAll furthest fuel (v + 1)

/-- Parse until no version is left or the finished tree cannot be beaten. -/
def Run.loop (r : Run σ) (furthest : Nat) : Nat → Run σ
  | 0 => r
  | fuel + 1 =>
    let (r, furthest) := r.advanceAll furthest (2 * maxVersions + 100) 0
    let (least, r) := r.condense
    let done := match r.finished with
      | some t => match least with
        | some c => t.cost < c
        | none => true
      | none => false
    if done || r.stack.versions.isEmpty then r else r.loop furthest fuel

/-- The syntax tree of a text. -/
def Language.parse (l : Language σ) (text : String) : SyntaxTree :=
  let source := Source.ofString text
  let start : Run σ := { language := l, source, stack := Stack.initial }
  let r := start.loop 0 (16 * (source.size + 16))
  match r.finished with
  | some t => Subtree.toSyntaxTree l (Subtree.labelKind l t.info.label) t.info.padding t
  | none => .node "ERROR" 0 text.utf8ByteSize ⟨0, 0⟩ []

end WebBaseline.Parsing
