import WebBaseline.Command.Run

/-!
# A world for commands

A world is all that commands can see and change: files, variables of the
environment, a clock, and the memory of the run.  Paths start at the root of
its files.  Its service never answers.
-/

namespace WebBaseline

/-- All that commands can see and change. -/
structure World where
  files : FileTree
  environment : String → Option String
  /-- The time in milliseconds. -/
  now : Int
  /-- What is stored as long as the run lasts. -/
  memory : Store.Memory := {}

/-- Where a store is. -/
inductive Place where
  | memory
  /-- In the file with some names, from the root on. -/
  | file (names : List String)
deriving DecidableEq, Repr

namespace World

/-- The store at a place. -/
def backend (w : World) : Place → Store.Backend
  | .memory => .memory w.memory
  | .file names =>
    match w.files.get? names with
    | some (.file (.database t)) => .table t
    | _ => .broken

/-- Replace the store at a place. -/
def setBackend (w : World) : Place → Store.Backend → World
  | .file names, .table t => { w with files := w.files.put names (.file (.database t)) }
  | .memory, .memory memory => { w with memory }
  | _, _ => w

/-- Carry out an operation of the store at a place. -/
def operate {α : Type} (place : Place)
    (operation : Store.Backend → Except Store.Error α × Store.Backend) :
    StateM World (Except Store.Error α) :=
  fun w =>
    let (outcome, b) := operation (w.backend place)
    (outcome, w.setBackend place b)

/-- The database of a file when it is opened: an empty or a missing file is an empty one. -/
def databaseOf (path : String) : Option FileTree → Except Store.Error Store.Table
  | none | some (.file (.text "")) => .ok {}
  | some (.file (.database t)) => .ok t.opened
  | some (.file _) => Store.Table.fail .noDatabase
  | some _ => Store.Table.fail (.cannotOpen path)

/-- Open the database at a path in files with the directory for it. -/
def openIn (files : FileTree) (path : String) : Except Store.Error (Place × FileTree) :=
  match files.resolve .missing path with
  | .error _ => Store.Table.fail (.cannotOpen path)
  | .ok names =>
    (databaseOf path (files.get? names)).map fun t =>
      (.file names, files.put names (.file (.database t)))

/-- Whether a path names a database that no file holds. -/
def isPrivate (path : String) : Bool := path.isEmpty || path == ":memory:"

/-- Open the database at a path.  Directories for it are made, even if it cannot be opened. -/
def openFile (path : String) : StateM World (Except Store.Error Place) := fun w =>
  if isPrivate path then (.ok .memory, w)
  else match w.files.makeDirectories (Path.parts path).dropLast.reverse with
    | .error e => (.error (.ofIo e.message), w)
    | .ok files =>
      match openIn files path with
      | .error e => (.error e, { w with files })
      | .ok (place, files) => (.ok place, { w with files })

/-- The entries of a directory. -/
def entries (w : World) (path : String) : Option (List (String × FileTree)) :=
  match w.files.at? path with
  | .ok (.directory entries) => some entries
  | _ => none

/-- Write a text to a file. -/
def writeText (path text : String) : StateM World (Except OsError Unit) := fun w =>
  match w.files.writeFile path (.text text) with
  | .ok files => (.ok (), { w with files })
  | .error e => (.error e, w)

/-- Worlds as systems.  Variables of the environment do not change. -/
def system (environment : String → Option String) : System (StateM World) Place where
  environment := environment
  readText path := fun w => (w.files.readText path, w)
  entries _ path := fun w => (w.entries path, w)
  writeText := writeText
  openFile := openFile
  openMemory := pure .memory
  get place key := operate place (Store.Backend.operations.get key)
  put place key e := operate place (Store.Backend.operations.put key e)
  remove place key := operate place (Store.Backend.operations.remove key)
  now := fun w => (w.now, w)
  request address := pure (.error (.unreachable address))
  wait _ := pure ()

/-- Run the program in a world.  Each run starts with an empty memory. -/
def run (w : World) (arguments : List String) : Outcome × World :=
  program (system w.environment) arguments { w with memory := {} }

end World

end WebBaseline
