import WebBaseline.Files.Error
import WebBaseline.Files.Path
import WebBaseline.Store.Table

/-!
# Trees of files

A tree holds regular files, directories and symbolic links.  A path is followed
part by part from the root; links in it are followed too, but not too many.
-/

namespace WebBaseline

/-- What a regular file holds. -/
inductive Content where
  | text (content : String)
  /-- Bytes that are no text. -/
  | binary
  | database (table : Store.Table)
deriving BEq, Inhabited

/-- A file, a directory with its entries in the order in which they are listed, or a link. -/
inductive FileTree where
  | file (content : Content)
  | directory (entries : List (String × FileTree))
  | link (target : String)
deriving Inhabited

namespace FileTree

/-- Whether a tree is a directory. -/
def isDirectory : FileTree → Bool
  | directory _ => true
  | _ => false

/-- The tree at some names below a directory.  Links are not followed. -/
def get? : List String → FileTree → Option FileTree
  | [], t => some t
  | name :: rest, directory entries => (entries.lookup name).bind (get? rest)
  | _ :: _, _ => none

/-- Put a tree at a name, in place of an earlier one. -/
def putEntry (name : String) (t : FileTree) : List (String × FileTree) → List (String × FileTree)
  | [] => [(name, t)]
  | (n, u) :: rest => if n = name then (name, t) :: rest else (n, u) :: putEntry name t rest

/-- Put a tree at some names below a directory. -/
def put : FileTree → List String → FileTree → FileTree
  | _, [], new => new
  | directory entries, name :: rest, new =>
    let old := (entries.lookup name).getD (directory [])
    directory (putEntry name (old.put rest new) entries)
  | _, name :: rest, new => directory [(name, (directory []).put rest new)]

/-! ### Paths -/

/-- What the last part of a path may be. -/
inductive Ending where
  /-- What it names exists, and if it is a link, so does the target. -/
  | existing
  /-- What it names exists; a link stands for itself. -/
  | entry
  /-- What it names, or the target of a link, may be missing. -/
  | missing
deriving DecidableEq, Repr

/-- The most links that are followed. -/
def mostLinks : Nat := 40

/-- Follow parts of a path from the names of a directory.  `beyond` goes on where a link leads,
from the names of a directory with the parts to follow there. -/
def followUpTo (root : FileTree) (ending : Ending)
    (beyond : List String → List String → Except OsError (List String)) :
    List String → List String → Except OsError (List String)
  | names, [] => .ok names
  | names, part :: rest =>
    match root.get? names with
    | some (.directory entries) =>
      if part = ".." then followUpTo root ending beyond names.dropLast rest
      else match entries.lookup part with
        | none =>
          if rest.isEmpty && ending == .missing then .ok (names ++ [part]) else .error .notFound
        | some (.link target) =>
          if rest.isEmpty && ending == .entry then .ok (names ++ [part])
          else beyond (if Path.isAbsolute target then [] else names) (Path.parts target ++ rest)
        | some _ => followUpTo root ending beyond (names ++ [part]) rest
    | _ => .error .notDirectory

/-- Follow parts of a path from the names of a directory, through so many links at most.  The
outcome are the names of what is meant, which go through no link. -/
def follow (root : FileTree) (ending : Ending) :
    Nat → List String → List String → Except OsError (List String)
  | 0 => followUpTo root ending fun _ _ => .error .tooManyLinks
  | links + 1 => followUpTo root ending (follow root ending links)

/-- The names of what a path means.  A path that ends with a slash means a directory. -/
def resolve (root : FileTree) (ending : Ending) (path : String) : Except OsError (List String) := do
  if path.isEmpty then throw .notFound
  let names ← follow root ending mostLinks [] (Path.parts path)
  let asDirectory := path.endsWith "/" || path.endsWith "/."
  match root.get? names with
  | some t => if asDirectory && !t.isDirectory then throw .notDirectory
  | none => pure ()
  return names

/-- The tree at a path. -/
def at? (root : FileTree) (path : String) : Except OsError FileTree := do
  match root.get? (← resolve root .existing path) with
  | some t => return t
  | none => throw .notFound

/-! ### Files -/

/-- The text of a file. -/
def readText (root : FileTree) (path : String) : Except ReadError String :=
  match root.at? path with
  | .error e => .error (.system e)
  | .ok (directory _) => .error (.system .isDirectory)
  | .ok (file (.text content)) => .ok content
  | .ok _ => .error .notText

/-- Write a file, which may be missing, in a directory that is there. -/
def writeFile (root : FileTree) (path : String) (content : Content) : Except OsError FileTree := do
  let names ← resolve root .missing path
  match root.get? names with
  | some (directory _) => throw .isDirectory
  | _ => return root.put names (file content)

/-- Whether parts of a path lead to a directory. -/
def hasDirectory (root : FileTree) (parts : List String) : Bool :=
  match follow root .existing mostLinks [] parts with
  | .ok names => (root.get? names).any isDirectory
  | .error _ => false

/-- Make a directory where nothing is, for the parts of its path. -/
def makeDirectory (root : FileTree) (parts : List String) : Except OsError FileTree :=
  match follow root .entry mostLinks [] parts with
  | .ok _ => .error .alreadyExists
  | .error _ => (follow root .missing mostLinks [] parts).map fun names =>
      root.put names (directory [])

/-- Make a directory and those above it where they are missing, for the parts of its path in
reverse. -/
def makeDirectories (root : FileTree) : List String → Except OsError FileTree
  | [] => .ok root
  | part :: above =>
    let parts := (part :: above).reverse
    match root.makeDirectory parts with
    | .ok r => .ok r
    | .error .notFound =>
      match makeDirectories root above with
      | .error e => .error e
      | .ok r =>
        match r.makeDirectory parts with
        | .ok r => .ok r
        | .error e => if r.hasDirectory parts then .ok r else .error e
    | .error e => if root.hasDirectory parts then .ok root else .error e

end FileTree

end WebBaseline
