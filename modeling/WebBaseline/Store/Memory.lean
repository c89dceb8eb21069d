import WebBaseline.Store.Entry

/-!
# A store in memory
-/

namespace WebBaseline.Store

/-- Entries with their keys, each key once. -/
structure Memory where
  entries : List (String × Entry) := []
deriving BEq, Inhabited

namespace Memory

/-- The entry under a key. -/
def get (m : Memory) (key : String) : Option Entry := (m.entries.find? (·.1 == key)).map (·.2)

/-- Write an entry, in place of an earlier one under its key. -/
def put (m : Memory) (key : String) (e : Entry) : Memory :=
  ⟨m.entries.filter (·.1 != key) ++ [(key, e)]⟩

/-- Remove the entry under a key, if there is one. -/
def remove (m : Memory) (key : String) : Memory := ⟨m.entries.filter (·.1 != key)⟩

/-- The number of entries. -/
def size (m : Memory) : Nat := m.entries.length

end Memory

end WebBaseline.Store
