/-!
# Errors of files

The errors of the operating system that operations on files meet, with their
numbers and wording.  Reading a text can fail besides because it is none.
-/

namespace WebBaseline

/-- An error of the operating system. -/
inductive OsError where
  | notFound
  | alreadyExists
  | notDirectory
  | isDirectory
  | tooManyLinks
  | other (number : Nat) (description : String)
deriving DecidableEq, Repr

namespace OsError

/-- The number of an error. -/
def number : OsError → Nat
  | notFound => 2
  | alreadyExists => 17
  | notDirectory => 20
  | isDirectory => 21
  | tooManyLinks => 40
  | other number _ => number

/-- The system's description of an error. -/
def description : OsError → String
  | notFound => "No such file or directory"
  | alreadyExists => "File exists"
  | notDirectory => "Not a directory"
  | isDirectory => "Is a directory"
  | tooManyLinks => "Too many levels of symbolic links"
  | other _ description => description

/-- The wording of an error. -/
def message (e : OsError) : String :=
  e.description ++ " (os error " ++ toString e.number ++ ")"

end OsError

/-- Why a text could not be read from a file. -/
inductive ReadError where
  | system (e : OsError)
  | notText
deriving DecidableEq, Repr

/-- The wording of an error. -/
def ReadError.message : ReadError → String
  | system e => e.message
  | notText => "stream did not contain valid UTF-8"

end WebBaseline
