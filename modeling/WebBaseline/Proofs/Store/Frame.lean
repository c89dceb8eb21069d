import WebBaseline.Proofs.Store.Agreement

/-!
# What a store shows of one key

What a store answers about a key depends on its kind, on whether it can be used
at all, and on what it holds under that key.  The same three facts decide what
it shows after a write or a removal, so stores that show the same of a key
cannot be told apart by anything that is done under it.

* `View`, `view` — the three facts;
* `get_eq_answer`, `isOk_put` — they decide the answers;
* `view_put_congr`, `view_remove_congr` — and what is shown afterwards;
* `view_put_other`, `view_remove_other` — other keys do not matter;
* `reopen_of_exact`, `Exact.afterPut`, `Exact.afterRemove` — stores that can
  be closed and opened again at any time.
-/

namespace WebBaseline.Store.Backend

/-- Whether a store can be used: a table may have been lost. -/
def isUsable : Backend → Bool
  | memory _ => true
  | table t => t.rows.isSome
  | broken => false

/-- What a store shows of one key. -/
structure View where
  kind : String
  usable : Bool
  held : Option (Entry ⊕ Row)

/-- What a store shows of a key. -/
def view (key : String) (b : Backend) : View := ⟨b.name, b.isUsable, b.held key⟩

/-- Stores that show the same of a key hold the same under it. -/
theorem held_eq_of_view {b b' : Backend} {key : String} (h : b.view key = b'.view key) :
    b.held key = b'.held key := congrArg View.held h

/-! ### Reading -/

/-- The answer of a store that shows something of a key when the key is read. -/
def View.answer (v : View) : Except Error (Option Entry) :=
  if v.usable then
    match v.held with
    | none => .ok none
    | some (.inl e) => .ok (some e)
    | some (.inr r) => (Table.readRow r).map some
  else if v.kind = broken.name then .error failure
  else Table.fail .noTable

/-- What a store shows of a key is all that a read of the key depends on. -/
theorem get_eq_answer (b : Backend) (key : String) : b.get key = (b.view key).answer := by
  cases b with
  | memory m =>
      simp only [get, view, View.answer, isUsable, held, if_true]
      cases m.get key <;> rfl
  | table t =>
      obtain ⟨rows⟩ := t
      cases rows with
      | none => rfl
      | some rows =>
          simp only [get, Table.get, view, View.answer, isUsable, held, Option.isSome_some,
            Option.bind_some, if_true]
          cases rows.find? (·.key == key) <;> rfl
  | broken => rfl

/-- Stores that show the same of a key give the same answer when it is read. -/
theorem get_eq_of_view {b b' : Backend} {key : String} (h : b.view key = b'.view key) :
    b.get key = b'.get key := by
  rw [get_eq_answer, get_eq_answer, h]

/-- A key under which nothing is held is not found. -/
theorem get_of_held_none {b : Backend} {key : String} (h : b.held key = none) (e : Entry) :
    b.get key ≠ .ok (some e) := by
  rw [get_eq_answer, View.answer, view, h]
  dsimp only
  split
  · simp
  · split <;> simp [Table.fail]

/-! ### Writing -/

/-- The store after a write, whether or not it is accepted. -/
abbrev afterPut (key : String) (e : Entry) (b : Backend) : Backend := (b.settle (b.put key e)).2

/-- A store accepts a write exactly if it can be used. -/
theorem isOk_put (b : Backend) (key : String) (e : Entry) :
    (b.put key e).isOk = b.isUsable := by
  cases b with
  | memory m => rfl
  | table t =>
      obtain ⟨rows⟩ := t
      cases rows <;> rfl
  | broken => rfl

/-- A write does not make a store usable or useless. -/
theorem isUsable_afterPut (b : Backend) (key : String) (e : Entry) :
    (b.afterPut key e).isUsable = b.isUsable := by
  cases b with
  | memory m => rfl
  | table t =>
      obtain ⟨rows⟩ := t
      cases rows <;> rfl
  | broken => rfl

/-- After a write a usable store holds what was written, and the rest as before. -/
theorem held_afterPut (b : Backend) (key : String) (e : Entry) (other : String) :
    (b.afterPut key e).held other =
      if other = key ∧ b.isUsable then some (b.form key e) else b.held other := by
  cases b with
  | memory m =>
      simp only [afterPut, put, settle, held, Memory.get_put, isUsable, and_true]
      split <;> rfl
  | table t =>
      obtain ⟨rows⟩ := t
      cases rows with
      | none =>
          have hlost : (table ⟨none⟩).afterPut key e = table ⟨none⟩ := rfl
          simp [hlost, isUsable]
      | some rows =>
          have hfind : (rows.filter (·.key != key) ++ [Table.rowOf key e]).find? (·.key == other) =
              if other = key then some (Table.rowOf key e) else rows.find? (·.key == other) :=
            find?_replaced Row.key rows (Table.rowOf key e) other
          simp only [afterPut, put, Table.put, Except.map, settle, held, Option.bind_some, hfind,
            isUsable, Option.isSome_some, and_true]
          split <;> rfl
  | broken =>
      have hbroken : broken.afterPut key e = broken := rfl
      simp [hbroken, isUsable]

/-- What a store shows after a write. -/
theorem view_afterPut (b : Backend) (key : String) (e : Entry) (other : String) :
    (b.afterPut key e).view other = ⟨b.name, b.isUsable,
      if other = key ∧ b.isUsable then some (b.form key e) else b.held other⟩ := by
  have hname : (b.afterPut key e).name = b.name := b.name_perform (.put key e)
  rw [view, hname, isUsable_afterPut, held_afterPut]

/-- The form of an entry depends on the kind of a store only. -/
theorem form_congr {b b' : Backend} (h : b.name = b'.name) (key : String) (e : Entry) :
    b.form key e = b'.form key e := by
  cases b <;> cases b' <;> first | rfl | exact absurd h (by simp [name])

/-- Stores that show the same of a key still do after the same write. -/
theorem view_put_congr {b b' : Backend} {key : String} (h : b.view key = b'.view key)
    (written : String) (e : Entry) :
    (b.afterPut written e).view key = (b'.afterPut written e).view key := by
  obtain ⟨hkind, husable, hheld⟩ := View.mk.inj h
  rw [view_afterPut, view_afterPut, hkind, husable, hheld, form_congr hkind]

/-- **Writing elsewhere.**  What is written under another key does not show. -/
theorem view_put_other {key written : String} (h : written ≠ key) (b : Backend) (e : Entry) :
    (b.afterPut written e).view key = b.view key := by
  rw [view_afterPut, if_neg fun hsame => h hsame.1.symm]
  rfl

/-! ### Removing -/

/-- The store after a removal, whether or not it succeeds. -/
abbrev afterRemove (key : String) (b : Backend) : Backend := (b.settle (b.remove key)).2

/-- A removal does not make a store usable or useless. -/
theorem isUsable_afterRemove (b : Backend) (key : String) :
    (b.afterRemove key).isUsable = b.isUsable := by
  cases b with
  | memory m => rfl
  | table t =>
      obtain ⟨rows⟩ := t
      cases rows <;> rfl
  | broken => rfl

/-- After a removal a store holds nothing under the key, and the rest as before. -/
theorem held_afterRemove (b : Backend) (key other : String) :
    (b.afterRemove key).held other = if other = key then none else b.held other := by
  by_cases h : other = key
  · subst h
    rw [if_pos rfl, held_settle_remove]
  · rw [if_neg h]
    cases b with
    | memory m => simp only [afterRemove, remove, settle, held, Memory.get_remove, if_neg h]
    | table t =>
        obtain ⟨rows⟩ := t
        cases rows with
        | none => rfl
        | some rows =>
            simp only [afterRemove, remove, Table.remove, Except.map, settle, held,
              Option.bind_some, find?_without Row.key rows key other, if_neg h]
    | broken => rfl

/-- What a store shows after a removal. -/
theorem view_afterRemove (b : Backend) (key other : String) :
    (b.afterRemove key).view other =
      ⟨b.name, b.isUsable, if other = key then none else b.held other⟩ := by
  have hname : (b.afterRemove key).name = b.name := b.name_perform (.remove key)
  rw [view, hname, isUsable_afterRemove, held_afterRemove]

/-- Stores that show the same of a key still do after the same removal. -/
theorem view_remove_congr {b b' : Backend} {key : String} (h : b.view key = b'.view key)
    (removed : String) :
    (b.afterRemove removed).view key = (b'.afterRemove removed).view key := by
  obtain ⟨hkind, husable, hheld⟩ := View.mk.inj h
  rw [view_afterRemove, view_afterRemove, hkind, husable, hheld]

/-- **Removing elsewhere.**  What is removed under another key does not show. -/
theorem view_remove_other {key removed : String} (h : removed ≠ key) (b : Backend) :
    (b.afterRemove removed).view key = b.view key := by
  rw [view_afterRemove, if_neg (Ne.symm h)]
  rfl

/-! ### Closing and opening -/

/-- Whether a store is opened as it was closed: a table is if it is there and all
its rows are exact. -/
def Exact : Backend → Prop
  | table t => ∃ rows, t = ⟨some rows⟩ ∧ ∀ r ∈ rows, r.Exact
  | memory _ | broken => True

/-- An exact store is opened as it was closed. -/
theorem reopen_of_exact {b : Backend} (h : b.Exact) : b.reopen = .ok b := by
  cases b with
  | memory m => rfl
  | table t =>
      obtain ⟨_, rfl, hrows⟩ := h
      rw [reopen, Table.ofFile_archive hrows]
      rfl
  | broken => rfl

/-- A store stays exact when an entry is written whose time has 64 bits. -/
theorem Exact.afterPut {b : Backend} (h : b.Exact) (key : String) {e : Entry}
    (hlow : -Bound.signed64 ≤ e.timestamp) (hhigh : e.timestamp < Bound.signed64) :
    (b.afterPut key e).Exact := by
  cases b with
  | memory m => trivial
  | table t =>
      obtain ⟨rows, rfl, hrows⟩ := h
      refine ⟨_, rfl, fun r hr => ?_⟩
      rcases List.mem_append.mp hr with hr | hr
      · exact hrows r (List.mem_filter.mp hr).1
      · obtain rfl := List.mem_singleton.mp hr
        exact Table.exact_rowOf key hlow hhigh
  | broken => trivial

/-- A store stays exact when an entry is removed. -/
theorem Exact.afterRemove {b : Backend} (h : b.Exact) (key : String) :
    (b.afterRemove key).Exact := by
  cases b with
  | memory m => trivial
  | table t =>
      obtain ⟨rows, rfl, hrows⟩ := h
      exact ⟨_, rfl, fun r hr => hrows r (List.mem_filter.mp hr).1⟩
  | broken => trivial

end WebBaseline.Store.Backend
