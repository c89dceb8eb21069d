import Std.Time.DateTime.Timestamp
import WebBaseline.Command.Run
import WebBaseline.Store.Archive

/-!
# The command line

The program on the system that it is started on: its files, its clock and its
variables of the environment.  The service of the catalog is out of reach, so
that a catalog comes from the cache or is empty.
-/

namespace WebBaseline.CommandLine

/-! ### Files -/

/-- An error of the system with its number. -/
def osError : IO.Error → OsError
  | .noFileOrDirectory .. => .notFound
  | .alreadyExists .. => .alreadyExists
  | .inappropriateType _ number _ => if number == 21 then .isDirectory else .notDirectory
  | .permissionDenied _ number text => .other number.toNat text
  | .resourceExhausted _ number text => .other number.toNat text
  | .invalidArgument _ number text => .other number.toNat text
  | .unsupportedOperation number text => .other number.toNat text
  | .otherError number text => .other number.toNat text
  | e => .other 0 e.toString

/-- Carry out an action on files. -/
def attempt {α : Type} (action : IO α) : IO (Except OsError α) := do
  match ← action.toBaseIO with
  | .ok a => return .ok a
  | .error e => return .error (osError e)

/-- The text of a file. -/
def readText (path : String) : IO (Except ReadError String) := do
  match ← attempt (IO.FS.readBinFile path) with
  | .error e => return .error (.system e)
  | .ok bytes =>
    match String.fromUTF8? bytes with
    | some text => return .ok text
    | none => return .error .notText

/-- What a file holds, if its name is that of a source. -/
def contentOf (e : IO.FS.DirEntry) : IO Content := do
  if (ScanLanguage.ofPath e.fileName).isNone then return .binary
  match ← readText e.path.toString with
  | .ok text => return .text text
  | .error _ => return .binary

/-- A file, a link, or a directory with all below it but what the ignored directories hold. -/
partial def treeOf (ignored : List String) (e : IO.FS.DirEntry) : IO FileTree := do
  match (← e.path.symlinkMetadata).type with
  | .symlink => return .link ""
  | .dir =>
    if ignored.contains e.fileName then return .directory []
    let below ← e.path.readDir
    .directory <$> below.toList.mapM fun d => return (d.fileName, ← treeOf ignored d)
  | .file => .file <$> contentOf e
  | .other => return .file .binary

/-- The entries of a directory, if there is one. -/
def entries (ignored : List String) (path : String) : IO (Option (List (String × FileTree))) := do
  if path.isEmpty then return none
  let here : IO.FS.DirEntry := ⟨path, "."⟩
  match ← attempt here.path.readDir with
  | .error _ => return none
  | .ok below => some <$> below.toList.mapM fun d => return (d.fileName, ← treeOf ignored d)

/-! ### Stores -/

/-- An open store. -/
inductive Cache where
  | memory (content : IO.Ref Store.Memory)
  | file (path : String)

/-- A store for this run. -/
def openMemory : IO Cache := return .memory (← IO.mkRef {})

/-- The database of a file, which is made if it is missing. -/
def readTable (path : String) : IO (Except Store.Error Store.Table) := do
  match ← readText path with
  | .ok text => return Store.Table.ofFile text
  | .error (.system .notFound) => return .ok {}
  | .error .notText => return Store.Table.fail .noDatabase
  | .error _ => return Store.Table.fail (.cannotOpen path)

/-- Write the database of a file. -/
def writeTable (path : String) (t : Store.Table) : IO (Except Store.Error Unit) := do
  match ← attempt (IO.FS.writeFile path t.archive) with
  | .ok () => return .ok ()
  | .error _ => return Store.Table.fail (.cannotOpen path)

/-- Open the store in a file.  Directories for it are made. -/
def openFile (path : String) : IO (Except Store.Error Cache) := do
  if path.isEmpty || path == ":memory:" then return .ok (← openMemory)
  let directory := "/".intercalate (path.splitOn "/").dropLast
  let made ← if directory.isEmpty then pure (.ok ()) else attempt (IO.FS.createDirAll directory)
  match made with
  | .error e => return .error (.ofIo e.message)
  | .ok () =>
    match ← readTable path with
    | .error e => return .error e
    | .ok t => return (← writeTable path t).map fun () => .file path

/-- Carry out an operation on an open store. -/
def operate {α : Type}
    (operation : Store.Backend → Except Store.Error α × Store.Backend) :
    Cache → IO (Except Store.Error α)
  | .memory content => do
    let (outcome, b) := operation (.memory (← content.get))
    if let .memory m := b then content.set m
    return outcome
  | .file path => do
    match ← readTable path with
    | .error e => return .error e
    | .ok t =>
      match operation (.table t) with
      | (.ok a, .table t) => return (← writeTable path t).map fun () => a
      | (outcome, _) => return outcome

/-! ### The system -/

/-- The variables of the environment that the program knows. -/
def variableNames : List String :=
  [Settings.apiBaseVariable, Settings.cachePathVariable, "XDG_CACHE_HOME", "HOME"]

/-- The values of the variables that are set. -/
def environment : IO (String → Option String) := do
  let values ← variableNames.mapM fun name => return (name, ← IO.getEnv name)
  return fun name => (values.lookup name).join

/-- The time in milliseconds. -/
def now : IO Int := do
  return (← Std.Time.Timestamp.now).toMillisecondsSinceUnixEpoch.val

/-- The system that the program is started on. -/
def system : IO (System IO Cache) := do
  return {
    environment := ← environment
    readText, entries, openFile, openMemory, now
    writeText := fun path text => attempt (IO.FS.writeFile path text)
    get := fun cache key => operate (Store.Backend.operations.get key) cache
    put := fun cache key e => operate (Store.Backend.operations.put key e) cache
    remove := fun cache key => operate (Store.Backend.operations.remove key) cache
    request := fun address => return .error (.unreachable address)
    wait := fun delay => IO.sleep (UInt32.ofNat (delay.secs * 1000 + delay.nanos / 1000000)) }

end WebBaseline.CommandLine

/-- Run the program with the arguments that it is given. -/
def main (arguments : List String) : IO UInt32 := do
  let outcome ← WebBaseline.program (← WebBaseline.CommandLine.system) arguments
  IO.print outcome.stdout
  IO.eprint outcome.stderr
  return UInt32.ofNat outcome.status
