import WebBaseline.Json.Decoding
import WebBaseline.Json.Reader

/-!
# Entries of a store

A store keeps one entry under each key: a value and the time of writing it.
An operation may fail; the error says what kind of failure it was and, where
another component failed, with which text.
-/

namespace WebBaseline.Store

/-- A value with the time of writing it, in milliseconds. -/
structure Entry where
  timestamp : Int
  data : Json
deriving BEq, Inhabited

namespace Entry

open Decoding

/-- The fields of an entry. -/
def fields : List (Field Json Fault Entry) :=
  [ .mandatory "timestamp_ms" Json.format.integer (fun a e => { e with timestamp := a }),
    .mandatory "data" (fun v => .ok v) (fun a e => { e with data := a }) ]

/-- Read an entry. -/
def ofJson (v : Json) : Except Fault Entry :=
  Json.format.readRecord "StoredEntry" false fields ⟨0, .null⟩ v

/-- The object for an entry. -/
def toJson (e : Entry) : Json :=
  .ofMembers [("timestamp_ms", .integer e.timestamp), ("data", e.data)]

end Entry

/-- The kinds of failures. -/
inductive ErrorKind where
  | database
  | serialization
  | corrupted
  | io
deriving DecidableEq, Repr

/-- The name of a kind. -/
def ErrorKind.name : ErrorKind → String
  | database => "database"
  | serialization => "serialization"
  | corrupted => "corrupted"
  | io => "io"

/-- A failure of a store. -/
structure Error where
  kind : ErrorKind
  text : String
  /-- The text of the failure that caused this one. -/
  cause : Option String := none
deriving DecidableEq, Repr

namespace Error

/-- A failure of the database. -/
def database (text : String) : Error := { kind := .database, text }

/-- A value that could not be written or read. -/
def serialization (text : String) : Error := { kind := .serialization, text }

/-- A value that does not match its checksum. -/
def corrupted (key : String) : Error :=
  { kind := .corrupted, text := "Checksum mismatch for key: " ++ key }

/-- A failure of the file system. -/
def io (text : String) : Error := { kind := .io, text }

/-- A failure that the database reports. -/
def ofDatabase (cause : String) : Error :=
  { kind := .database, text := "SQLite error: " ++ cause, cause := some cause }

/-- A text that is no JSON. -/
def ofJsonError (e : Json.SyntaxError) : Error :=
  { kind := .serialization, text := "JSON error: " ++ e.message, cause := some e.message }

/-- A failure that the file system reports. -/
def ofIo (cause : String) : Error :=
  { kind := .io, text := "I/O error: " ++ cause, cause := some cause }

/-- The wording of an error. -/
def message (e : Error) : String := "[" ++ e.kind.name ++ "] " ++ e.text

end Error

end WebBaseline.Store
