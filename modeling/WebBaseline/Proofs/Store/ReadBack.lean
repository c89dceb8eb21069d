import WebBaseline.Proofs.Json.RoundTrip
import WebBaseline.Store.Backend

/-!
# Reading back what was written

An entry that a store has accepted is the one that the next look under its key
finds.  Memory keeps the entry itself; a table keeps the text of its value, so
there the value must be one that its text determines.

* `find?_replaced`, `find?_without` — lists in which elements of a key are
  replaced or dropped;
* `Memory.get_put`, `Table.get_put`, `Memory.get_remove`, `Table.get_remove` —
  the two kinds of stores;
* `Backend.holds_of_put`, `Backend.get_of_put`, `Backend.get_of_remove` — every
  store that does what it is asked for;
* `Backend.Holds.get_eq` — what is found of an entry that a store holds, whatever it is;
* `Backend.preserves_of_plain` — the values that every store gives back.
-/

namespace WebBaseline.Store

/-! ### Lists with keys -/

section Keyed

variable {α : Type} (keyOf : α → String)

/-- Without the elements of a key the others are found as before. -/
theorem find?_without (l : List α) (key other : String) :
    (l.filter (keyOf · != key)).find? (keyOf · == other) =
      if other = key then none else l.find? (keyOf · == other) := by
  rw [List.find?_filter]
  split
  · rename_i heq
    subst heq
    rw [List.find?_eq_none]
    simp
  · rename_i hne
    congr 1
    funext a
    by_cases ha : keyOf a = other
    · simp [ha, hne]
    · simp [ha]

/-- In place of the elements of its key an element is found, and the others as before. -/
theorem find?_replaced (l : List α) (a : α) (other : String) :
    (l.filter (keyOf · != keyOf a) ++ [a]).find? (keyOf · == other) =
      if other = keyOf a then some a else l.find? (keyOf · == other) := by
  rw [List.find?_append, find?_without]
  by_cases h : other = keyOf a
  · simp [h]
  · simp [h, Ne.symm h]

end Keyed

/-! ### Memory -/

/-- Memory finds what was written last under a key, and the other entries as before. -/
theorem Memory.get_put (m : Memory) (key : String) (e : Entry) (other : String) :
    (m.put key e).get other = if other = key then some e else m.get other := by
  rw [Memory.get, Memory.put, find?_replaced Prod.fst m.entries (key, e) other, apply_ite
    (Option.map Prod.snd)]
  rfl

/-- Memory finds nothing under a key that was removed, and the other entries as before. -/
theorem Memory.get_remove (m : Memory) (key other : String) :
    (m.remove key).get other = if other = key then none else m.get other := by
  rw [Memory.get, Memory.remove, find?_without Prod.fst m.entries key other, apply_ite
    (Option.map Prod.snd)]
  rfl

/-! ### Tables -/

/-- A row of a table is read as the entry that it was made of, if the text of
its value determines the value. -/
theorem Table.readRow_rowOf {key : String} {e : Entry}
    (htext : Json.parse e.data.compact = .ok e.data) :
    Table.readRow (Table.rowOf key e) = .ok e := by
  simp [Table.readRow, Table.rowOf, htext]

/-- A table reads the row that was written last under a key, and the others as before. -/
theorem Table.get_put {t after : Table} {key : String} {e : Entry}
    (hput : t.put key e = .ok after) (other : String) :
    after.get other =
      if other = key then (Table.readRow (Table.rowOf key e)).map some else t.get other := by
  cases hrows : t.rows with
  | none => simp [Table.put, hrows, Table.fail] at hput
  | some rows =>
      simp only [Table.put, hrows, Except.ok.injEq] at hput
      subst hput
      have hfind : (rows.filter (·.key != key) ++ [Table.rowOf key e]).find? (·.key == other) =
          if other = key then some (Table.rowOf key e) else rows.find? (·.key == other) :=
        find?_replaced Row.key rows (Table.rowOf key e) other
      simp only [Table.get, hrows, hfind]
      by_cases hother : other = key
      · simp only [hother, if_true]
      · simp only [hother, if_false]

/-- A table finds nothing under a key that was removed, and the other entries as before. -/
theorem Table.get_remove {t after : Table} {key : String} (hremove : t.remove key = .ok after)
    (other : String) : after.get other = if other = key then .ok none else t.get other := by
  cases hrows : t.rows with
  | none => simp [Table.remove, hrows, Table.fail] at hremove
  | some rows =>
      simp only [Table.remove, hrows, Except.ok.injEq] at hremove
      subst hremove
      simp only [Table.get, hrows, find?_without Row.key rows key other]
      by_cases hother : other = key
      · simp only [hother, if_true]
      · simp only [hother, if_false]

namespace Backend

/-- Whether a store of this kind gives back a value as it was written: memory
does, and a table does if the text of the value determines it. -/
def Preserves (v : Json) : Backend → Prop
  | table _ => Json.parse v.compact = .ok v
  | memory _ | broken => True

/-- What a store holds under a key: memory an entry, a table a row. -/
def held (key : String) : Backend → Option (Entry ⊕ Row)
  | memory m => (m.get key).map .inl
  | table t => (t.rows.bind fun rows => rows.find? (·.key == key)).map .inr
  | broken => none

/-- An entry in the form in which a store of this kind holds it. -/
def form (key : String) (e : Entry) : Backend → Entry ⊕ Row
  | table _ => .inr (Table.rowOf key e)
  | memory _ | broken => .inl e

/-- Whether a store holds exactly an entry under a key. -/
def Holds (key : String) (e : Entry) (b : Backend) : Prop := b.held key = some (b.form key e)

/-- A store holds what it has accepted. -/
theorem holds_of_put {b after : Backend} {key : String} {e : Entry}
    (hput : b.put key e = .ok after) : after.Holds key e := by
  cases b with
  | memory m =>
      obtain rfl : memory (m.put key e) = after := Except.ok.inj hput
      simp [Holds, held, form, Memory.get_put]
  | table t =>
      cases hrows : t.rows with
      | none => simp [Backend.put, Table.put, hrows, Table.fail, Except.map] at hput
      | some rows =>
          simp only [Backend.put, Table.put, hrows, Except.map, Except.ok.injEq] at hput
          subst hput
          have hfind : (rows.filter (·.key != key) ++ [Table.rowOf key e]).find? (·.key == key) =
              some (Table.rowOf key e) :=
            (find?_replaced Row.key rows (Table.rowOf key e) key).trans (if_pos rfl)
          simp only [Holds, held, form, Option.bind_some, hfind, Option.map_some]
  | broken => cases hput

/-- A table with just its row holds an entry. -/
theorem holds_table_rowOf (key : String) (e : Entry) :
    (table ⟨some [Table.rowOf key e]⟩).Holds key e := by
  simp [Holds, held, form, Table.rowOf]

/-- Whether or not it succeeds, after a removal a store holds nothing. -/
theorem held_settle_remove (b : Backend) (key : String) :
    (b.settle (b.remove key)).2.held key = none := by
  cases b with
  | memory m => simp [Backend.remove, settle, held, Memory.get_remove]
  | table t =>
      cases hrows : t.rows with
      | none => simp [Backend.remove, Table.remove, hrows, Table.fail, Except.map, settle, held]
      | some rows =>
          simp [Backend.remove, Table.remove, hrows, Except.map, settle, held]
  | broken => rfl

/-- What a store of this kind gives back of an entry that it holds: memory the entry itself, and a
table what it reads its row as. -/
def readBack (key : String) (e : Entry) : Backend → Except Error Entry
  | table _ => Table.readRow (Table.rowOf key e)
  | memory _ | broken => .ok e

/-- A store finds what it gives back of the entry that it holds. -/
theorem Holds.get_eq {b : Backend} {key : String} {e : Entry} (h : b.Holds key e) :
    b.get key = (b.readBack key e).map some := by
  cases b with
  | memory m =>
      have hget : m.get key = some e := by simpa [Holds, held, form] using h
      rw [Backend.get, hget]
      rfl
  | table t =>
      cases hrows : t.rows with
      | none => simp [Holds, held, hrows] at h
      | some rows =>
          have hfind : rows.find? (·.key == key) = some (Table.rowOf key e) := by
            simpa [Holds, held, form, hrows] using h
          simp only [Backend.get, Table.get, hrows, hfind, readBack]
  | broken => cases h

theorem readBack_of_preserves {b : Backend} {e : Entry} (hvalue : b.Preserves e.data)
    (key : String) : b.readBack key e = .ok e := by
  cases b with
  | memory m => rfl
  | table t => exact Table.readRow_rowOf hvalue
  | broken => rfl

/-- A store finds the entry that it holds, if it gives its value back as it was written. -/
theorem Holds.get {b : Backend} {key : String} {e : Entry} (h : b.Holds key e)
    (hvalue : b.Preserves e.data) : b.get key = .ok (some e) := by
  rw [h.get_eq, readBack_of_preserves hvalue]
  rfl

/-- A store that has accepted an entry finds it under its key. -/
theorem get_of_put {b after : Backend} {key : String} {e : Entry}
    (hput : b.put key e = .ok after) (hvalue : after.Preserves e.data) :
    after.get key = .ok (some e) :=
  (holds_of_put hput).get hvalue

/-- A store that has accepted an entry finds the others as before. -/
theorem get_of_put_other {b after : Backend} {key other : String} {e : Entry}
    (hput : b.put key e = .ok after) (hother : other ≠ key) : after.get other = b.get other := by
  cases b with
  | memory m =>
      obtain rfl : memory (m.put key e) = after := Except.ok.inj hput
      simp [Backend.get, Memory.get_put, hother]
  | table t =>
      cases ht : t.put key e with
      | error f => simp [Backend.put, ht, Except.map] at hput
      | ok t' =>
          simp only [Backend.put, ht, Except.map, Except.ok.injEq] at hput
          subst hput
          rw [Backend.get, Backend.get, Table.get_put ht, if_neg hother]
  | broken => simp [Backend.put] at hput

/-- A store finds nothing under a key that it has removed, and the other entries as before. -/
theorem get_of_remove {b after : Backend} {key : String} (hremove : b.remove key = .ok after)
    (other : String) : after.get other = if other = key then .ok none else b.get other := by
  cases b with
  | memory m =>
      obtain rfl : memory (m.remove key) = after := Except.ok.inj hremove
      simp only [Backend.get, Memory.get_remove]
      split <;> rfl
  | table t =>
      cases ht : t.remove key with
      | error f => simp [Backend.remove, ht, Except.map] at hremove
      | ok t' =>
          simp only [Backend.remove, ht, Except.map, Except.ok.injEq] at hremove
          subst hremove
          exact Table.get_remove ht other
  | broken => simp [Backend.remove] at hremove

/-- Every store gives back values that their texts determine. -/
theorem preserves_of_plain {v : Json} (h : Json.Plain (Json.Reader.maxDepth - 1) v)
    (b : Backend) : b.Preserves v := by
  cases b with
  | table t => exact Json.parse_compact h
  | memory m => trivial
  | broken => trivial

end Backend

end WebBaseline.Store
