import Std.Data.HashMap
import WebBaseline.Grammar.Normal

/-!
# Items

An item is a production with a place in it.  Items are numbered, and those that
leave the same to be read share a number.
-/

namespace WebBaseline.Grammar

namespace Table

/-- A production with a place in it.  Productions of one variable that agree in
what is left, in their length and in the marks of the past are one item. -/
structure ItemKey where
  /-- The variable of the production; none for the start. -/
  head : Option Nat
  dot : Nat
  length : Nat
  precedence : Int
  associativity : Option Associativity
  aliases : List (Option Alias)
  rest : List Step
deriving BEq, Hashable

/-- An item with what the construction asks of it. -/
structure Item where
  /-- The variable of the production; none for the start. -/
  head : Option Nat
  dot : Nat
  precedence : Int
  associativity : Option Associativity
  next : Option Step
  afterNext : Option Step
  /-- The number of the aliasing of the production. -/
  aliasing : Nat
  successor : Nat
deriving Inhabited

/-- All items of a grammar. -/
structure Items where
  keys : Std.HashMap ItemKey Nat := {}
  items : Array Item := #[]
  aliasings : Array (List (Option Alias)) := #[[]]
deriving Inhabited

/-- The number of a production's aliasing; 0 when nothing is aliased. -/
def Items.aliasing (t : Items) (p : Production) : Nat × Items :=
  let aliases := p.map (·.shownAs)
  if aliases.all (·.isNone) then (0, t)
  else
    let trimmed := (aliases.reverse.dropWhile (·.isNone)).reverse
    match t.aliasings.findIdx? (· == trimmed) with
    | some i => (i, t)
    | none => (t.aliasings.size, { t with aliasings := t.aliasings.push trimmed })

/-- The key of the item at a place of a production. -/
def ItemKey.ofProduction (head : Option Nat) (p : Production) (dot : Nat) : ItemKey :=
  let past := p.take dot
  let previous := past.getLast?
  { head, dot, length := p.length
    precedence := (previous.map (·.precedence)).getD 0
    associativity := previous.bind (·.associativity)
    aliases := past.map (·.shownAs)
    rest := p.drop dot }

/-- The number of the item at a place of a production, before the item `successor`. -/
def Items.addItem (t : Items) (head : Option Nat) (p : Production) (aliasing dot successor : Nat) :
    Nat × Items :=
  let key := ItemKey.ofProduction head p dot
  match t.keys[key]? with
  | some i => (i, t)
  | none =>
    (t.items.size,
      { t with
        keys := t.keys.insert key t.items.size
        items := t.items.push
          { head, dot, precedence := key.precedence, associativity := key.associativity
            next := key.rest.head?, afterNext := key.rest[1]?, aliasing, successor } })

/-- Number the items of a production, last place first; gives the item at the start. -/
def Items.addProduction (t : Items) (head : Option Nat) (p : Production) : Nat × Items :=
  let (aliasing, t) := t.aliasing p
  (List.range (p.length + 1)).reverse.foldl
    (fun (successor, t) dot => addItem t head p aliasing dot successor) (0, t)

end Table

end WebBaseline.Grammar
