import IssueRelay.Files.Path

/-!
# File systems

What the program asks of the files of a machine: whether there is something at a path, and what a
file holds.
-/

namespace IssueRelay

/-- Why a file cannot be read as text. -/
inductive ReadError
  | notFound
  | isDirectory
  | notDirectory
  | notText
  deriving DecidableEq, Repr

/-- The wording of the system. -/
def ReadError.message : ReadError → String
  | .notFound => "No such file or directory (os error 2)"
  | .isDirectory => "Is a directory (os error 21)"
  | .notDirectory => "Not a directory (os error 20)"
  | .notText => "stream did not contain valid UTF-8"

/-- The files of a machine. -/
structure FileSystem where
  exists? : FilePath → Bool
  read : FilePath → Except ReadError Octets

namespace FileSystem

/-- The text that a file holds. -/
def readText (files : FileSystem) (path : FilePath) : Except ReadError String := do
  match Utf8.decode? (← files.read path) with
  | some text => return text
  | none => throw .notText

end FileSystem
end IssueRelay
