import WebBaseline.Store.Backend

/-!
# Stores as texts

A table is kept as a JSON text: an array with one array of four cells for each
row, or null if the database has lost its table.  Bytes are kept as numbers.  `Row.ofJson?_toJson` says that
no row is changed on the way.
-/

namespace WebBaseline.Store

/-- A list is read back from what is written for its elements if each of them is. -/
theorem mapM_map_eq_some {α β : Type} {write : α → β} {read? : β → Option α}
    (h : ∀ a, read? (write a) = some a) (as : List α) : (as.map write).mapM read? = some as := by
  induction as with
  | nil => rfl
  | cons a rest ih =>
      rw [List.map_cons, List.mapM_cons, h, ih]
      rfl

namespace Cell

/-- The byte that a JSON value stands for. -/
def byteOfJson? : Json → Option UInt8
  | .integer i => if 0 ≤ i ∧ i < UInt8.size then some (.ofNat i.toNat) else none
  | _ => none

/-- The JSON value for a cell. -/
def toJson : Cell → Json
  | nothing => .null
  | integer i => .integer i
  | double x => .double x
  | text s => .text s
  | bytes value => .array (value.map fun b => .integer b.toNat)

/-- The cell that a JSON value stands for. -/
def ofJson? : Json → Option Cell
  | .null => some nothing
  | .integer i => some (integer i)
  | .double x => some (double x)
  | .text s => some (text s)
  | .array values => (values.mapM byteOfJson?).map bytes
  | _ => none

theorem byteOfJson?_integer (b : UInt8) : byteOfJson? (.integer b.toNat) = some b := by
  have hlt : b.toNat < UInt8.size := b.toNat_lt_size
  have hrange : (0 : Int) ≤ b.toNat ∧ (b.toNat : Int) < UInt8.size := by omega
  rw [byteOfJson?, if_pos hrange, Int.toNat_natCast, UInt8.ofNat_toNat]

theorem ofJson?_toJson (c : Cell) : ofJson? c.toJson = some c := by
  cases c with
  | bytes value =>
      rw [toJson, ofJson?, mapM_map_eq_some byteOfJson?_integer, Option.map_some]
  | _ => rfl

end Cell

/-- The JSON value for a row. -/
def Row.toJson (r : Row) : Json :=
  .array [.text r.key, r.timestamp.toJson, r.payload.toJson, r.checksum.toJson]

/-- The row that a JSON value stands for. -/
def Row.ofJson? : Json → Option Row
  | .array [.text key, timestamp, payload, checksum] => do
    return ⟨key, ← Cell.ofJson? timestamp, ← Cell.ofJson? payload, ← Cell.ofJson? checksum⟩
  | _ => none

theorem Row.ofJson?_toJson (r : Row) : Row.ofJson? r.toJson = some r := by
  simp [toJson, Row.ofJson?, Cell.ofJson?_toJson]

namespace Table

/-- The text that a table is kept as. -/
def archive (t : Table) : String :=
  match t.rows with
  | none => Json.compact .null
  | some rows => (Json.array (rows.map Row.toJson)).compact

/-- The table that a text keeps. -/
def ofArchive? (text : String) : Option Table :=
  match Json.parse text with
  | .ok .null => some ⟨none⟩
  | .ok (.array rows) => (rows.mapM Row.ofJson?).map fun rows => ⟨some rows⟩
  | _ => none

/-- The table of a file when it is opened: an empty file is an empty database. -/
def ofFile (text : String) : Except Error Table :=
  if text.isEmpty then .ok {}
  else match ofArchive? text with
    | some t => .ok t.opened
    | none => fail .noDatabase

end Table

end WebBaseline.Store
