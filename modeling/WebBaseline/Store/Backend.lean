import WebBaseline.Store.Memory
import WebBaseline.Store.Table

/-!
# Stores

`Operations` is what users of a store rely on, over any state; every operation
takes effect at once, and one that fails leaves the entries as they are.
`Backend` holds the kinds of stores there are.
-/

namespace WebBaseline.Store

/-- The operations of a store with states `σ`. -/
structure Operations (σ : Type) where
  get : String → σ → Except Error (Option Entry) × σ
  put : String → Entry → σ → Except Error Unit × σ
  remove : String → σ → Except Error Unit × σ

/-- A store. -/
inductive Backend where
  | memory (content : Memory)
  | table (content : Table)
  /-- A store of which every operation fails. -/
  | broken
deriving BEq, Inhabited

namespace Backend

/-- The name of the kind of a store. -/
def name : Backend → String
  | memory _ => "memory"
  | table _ => "sqlite"
  | broken => "broken"

/-- The failure of a broken store. -/
def failure : Error := .database "broken"

/-- The entry under a key. -/
def get (key : String) : Backend → Except Error (Option Entry)
  | memory m => .ok (m.get key)
  | table t => t.get key
  | broken => .error failure

/-- Write an entry. -/
def put (key : String) (e : Entry) : Backend → Except Error Backend
  | memory m => .ok (memory (m.put key e))
  | table t => (t.put key e).map table
  | broken => .error failure

/-- Remove the entry under a key. -/
def remove (key : String) : Backend → Except Error Backend
  | memory m => .ok (memory (m.remove key))
  | table t => (t.remove key).map table
  | broken => .error failure

/-- The outcome of an operation with the store after it. -/
def settle (before : Backend) : Except Error Backend → Except Error Unit × Backend
  | .ok after => (.ok (), after)
  | .error e => (.error e, before)

/-- The operations of the stores. -/
def operations : Operations Backend where
  get key b := (b.get key, b)
  put key e b := b.settle (b.put key e)
  remove key b := b.settle (b.remove key)

end Backend

end WebBaseline.Store
