import WebBaseline.Text.Blank

/-!
# Languages of files

The scanner of a file is chosen by the extension of its name: what follows the
last dot of the last part of its path, unless that dot is the first character.
-/

namespace WebBaseline

/-- The languages that are scanned. -/
inductive ScanLanguage where
  | script
  | style
  | markup
deriving DecidableEq, Repr, Inhabited

namespace ScanLanguage

/-- All languages. -/
def all : List ScanLanguage := [script, style, markup]

/-- The name of a language. -/
def name : ScanLanguage → String
  | script => "script"
  | style => "style"
  | markup => "markup"

/-- The extensions of a language's files, in lower case. -/
def extensions : ScanLanguage → List String
  | script => ["js", "jsx", "ts", "tsx"]
  | style => ["css"]
  | markup => ["html"]

/-- The language of an extension in any case. -/
def ofExtension (extension : String) : Option ScanLanguage :=
  all.find? fun l => l.extensions.contains (Text.lower extension)

/-- The parts of a path between slashes. -/
def pathParts (path : List Char) : List (List Char) := path.splitOn '/'

/-- The name of a file: the last part of its path.  Empty parts and single dots
do not count, and two dots name no file. -/
def fileName? (path : List Char) : Option (List Char) :=
  match ((pathParts path).filter fun p => p ≠ [] ∧ p ≠ ['.']).getLast? with
  | some name => if name = ['.', '.'] then none else some name
  | none => none

/-- What precedes and follows the last dot. -/
def splitAtLastDot (cs : List Char) : Option (List Char × List Char) :=
  let after := (cs.reverse.takeWhile (· ≠ '.')).reverse
  if after.length = cs.length then none
  else some (cs.take (cs.length - after.length - 1), after)

/-- The extension of a file's name. -/
def extension? (path : String) : Option String :=
  match (fileName? path.toList).bind splitAtLastDot with
  | some (before, after) => if before.isEmpty then none else some (String.ofList after)
  | none => none

/-- The language of a file. -/
def ofPath (path : String) : Option ScanLanguage := (extension? path).bind ofExtension

/-- Whether a script is read without markup inside it: what follows the last dot
of its path is `ts` in any case. -/
def isPlainTyped (path : String) : Bool :=
  match splitAtLastDot path.toList with
  | some (_, after) => Text.lower (String.ofList after) == "ts"
  | none => false

end ScanLanguage

end WebBaseline
