import WebBaseline.Parsing.Run

/-!
# The next token

A token is read by hand where the state has a use for that, and by the patterns
otherwise.  If nothing can be read, all tokens are tried, and text is skipped
until one fits.
-/

namespace WebBaseline.Parsing

open WebBaseline.Grammar WebBaseline.Text

variable {σ : Type} [BEq σ]

/-- A token found in the text. -/
structure Found (σ : Type) where
  label : Label
  start : Nat
  stop : Nat
  external : Option (Option σ) := none
  changesState : Bool := false

/-- Read a token by hand, unless the reading is empty and would lead nowhere. -/
def Run.readByHand (r : Run σ) (v state : Nat) (mode : Mode) (recovering : Bool) (i : Nat) :
    Option (Found σ) :=
  if mode.externals.isEmpty then none
  else
    let external := (r.stack.version v).external
    let first := if i == 0 then r.source.textStart else i
    match r.language.readExternal external mode.externals r.source first with
    | none => none
    | some t =>
      let changesState := !(t.state == external)
      let id := Table.tokenId r.language.table.normal (.external t.external)
      let empty := t.stop ≤ i && !changesState
      let useless := recovering || !r.stack.hasAdvanced v || r.language.afterToken state id == state
      if empty && useless then none
      else some
        { label := .token id, start := min t.start t.stop, stop := t.stop
          external := some t.state, changesState }

/-- Read a token by the patterns. -/
def Run.readByPattern (r : Run σ) (mode : Mode) (i : Nat) : Option (Found σ) × Nat × Nat :=
  let first := if i == 0 then r.source.textStart else i
  let a := r.language.table.automaton
  let (reading, start, stop) :=
    a.follow r.source mode.endAllowed (a.startAt mode.tokens) first first true none
  let found := reading.map fun t =>
    ({ label := match t.token with
        | some k => .token (1 + k)
        | none => .token 0
       start := t.start, stop := t.stop } : Found σ)
  (found, start, stop)

/-- Skip text until some token can be read; gives the region skipped. -/
def Run.skip (r : Run σ) (v : Nat) (mode : Mode) : Nat → Nat → Nat → Nat → Nat × Nat
  | 0, start, stop, _ => (start, stop)
  | fuel + 1, start, stop, i =>
    match r.readByHand v recoveryState mode true i with
    | some _ => (start, stop)
    | none => match r.readByPattern mode i with
      | (some _, _, _) => (start, stop)
      | (none, _, cursor) =>
        if cursor == stop then
          if r.source.atEnd cursor then (start, stop)
          else r.skip v mode fuel start (cursor + 1) (cursor + 1)
        else r.skip v mode fuel start cursor cursor

/-- The next token of a version.  If the state has no use for anything that the
text could start with, all tokens are tried, and if none fits, text is skipped. -/
def Run.read (r : Run σ) (v : Nat) : Subtree σ :=
  let state := r.stack.state v
  let position := r.stack.position v
  let i := position.chars
  let modeOf (s : Nat) : Mode := r.language.modes.getD s default
  let leaf (f : Found σ) : Subtree σ :=
    match Subtree.leaf r.language f.label (r.source.position f.start - position)
        (r.source.between f.start f.stop) with
    | .node info cs =>
      .node { info with external := f.external, changesState := f.changesState } cs
  let attempt (mode : Mode) (recovering : Bool) : Option (Found σ) × Nat × Nat :=
    match r.readByHand v state mode recovering i with
    | some f => (some f, i, i)
    | none => r.readByPattern mode i
  let recovering := state == recoveryState
  let first := attempt (modeOf state) recovering
  match first with
  | (some f, _, _) => leaf f
  | (none, start, cursor) =>
    let second := if recovering then (none, start, cursor) else attempt (modeOf recoveryState) true
    match second with
    | (some f, _, _) => leaf f
    | (none, start, cursor) =>
      let mode := modeOf recoveryState
      let (start, stop) :=
        if cursor == start then
          if r.source.atEnd cursor then (start, start)
          else r.skip v mode (r.source.size + 1) start (cursor + 1) (cursor + 1)
        else r.skip v mode (r.source.size + 1) start cursor cursor
      leaf { label := .error, start, stop }

end WebBaseline.Parsing
