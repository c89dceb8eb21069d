import WebBaseline.Digest.Sha256
import WebBaseline.Json.Printer
import WebBaseline.Store.Entry

/-!
# A store in a database table

Each row holds a key, the time of writing, the text of the value and the
checksum of that text.  Rows may be changed from outside, so that their cells may
hold anything; reading checks the types of the cells, the checksum and the text, in
this order.
-/

namespace WebBaseline.Store

/-- The content of a cell: nothing, a number, a text or bytes. -/
inductive Cell where
  | nothing
  | integer (value : Int)
  | double (value : Binary64)
  | text (value : String)
  | bytes (value : List UInt8)
deriving BEq, DecidableEq, Repr, Inhabited

/-- The name of the type of a cell. -/
def Cell.typeName : Cell → String
  | nothing => "Null"
  | integer _ => "Integer"
  | double _ => "Real"
  | text _ => "Text"
  | bytes _ => "Blob"

/-- A row of the table. -/
structure Row where
  key : String
  timestamp : Cell
  payload : Cell
  checksum : Cell
deriving BEq, DecidableEq, Repr, Inhabited

/-- The table of a database; a database may have lost it. -/
structure Table where
  rows : Option (List Row) := some []
deriving BEq, DecidableEq, Repr, Inhabited

namespace Table

/-- Why the database cannot answer. -/
inductive Failure where
  | noTable
  | wrongType (cell : Cell) (index : Nat) (column : String)
  | noDatabase
  | cannotOpen (path : String)
deriving DecidableEq, Repr

/-- The wording of a failure. -/
def Failure.message : Failure → String
  | noTable => "no such table: cache_entries"
  | wrongType cell index column =>
    "Invalid column type " ++ cell.typeName ++ " at index: " ++ toString index ++ ", name: " ++
      column
  | noDatabase => "file is not a database"
  | cannotOpen path => "unable to open database file: " ++ path

/-- A failure as an error of the store. -/
def fail {α : Type} (f : Failure) : Except Error α := .error (.ofDatabase f.message)

/-- The table as it is when the store is opened: it is made if it is missing. -/
def opened (t : Table) : Table := ⟨some (t.rows.getD [])⟩

/-- The entry of a row. -/
def readRow (r : Row) : Except Error Entry :=
  match r.timestamp with
  | .integer timestamp =>
    match r.payload with
    | .text payload =>
      match r.checksum with
      | .text checksum =>
        if Digest.sha256 payload = checksum then
          match Json.parse payload with
          | .ok data => .ok ⟨timestamp, data⟩
          | .error e => .error (.ofJsonError e)
        else .error (.corrupted r.key)
      | c => fail (.wrongType c 2 "checksum")
    | c => fail (.wrongType c 1 "payload")
  | c => fail (.wrongType c 0 "timestamp_ms")

/-- The row of an entry. -/
def rowOf (key : String) (e : Entry) : Row :=
  let payload := e.data.compact
  { key, timestamp := .integer e.timestamp, payload := .text payload
    checksum := .text (Digest.sha256 payload) }

/-- The entry under a key. -/
def get (t : Table) (key : String) : Except Error (Option Entry) :=
  match t.rows with
  | none => fail .noTable
  | some rows =>
    match rows.find? (·.key == key) with
    | none => .ok none
    | some r => (readRow r).map some

/-- Write an entry, in place of an earlier one under its key. -/
def put (t : Table) (key : String) (e : Entry) : Except Error Table :=
  match t.rows with
  | none => fail .noTable
  | some rows => .ok ⟨some (rows.filter (·.key != key) ++ [rowOf key e])⟩

/-- Remove the entry under a key, if there is one. -/
def remove (t : Table) (key : String) : Except Error Table :=
  match t.rows with
  | none => fail .noTable
  | some rows => .ok ⟨some (rows.filter (·.key != key))⟩

end Table

end WebBaseline.Store
