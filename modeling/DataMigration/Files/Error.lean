/-!
# File errors

What can go wrong with a file or directory, and the wording of it.
-/

namespace DataMigration

/-- Why a file or directory cannot be used. -/
inductive FileError where
  | notFound
  | denied
  | exists
  | notDirectory
  | isDirectory
  | invalidText
  deriving DecidableEq, Repr

/-- The wording of a file error. -/
def FileError.message : FileError → String
  | .notFound => "No such file or directory (os error 2)"
  | .denied => "Permission denied (os error 13)"
  | .exists => "File exists (os error 17)"
  | .notDirectory => "Not a directory (os error 20)"
  | .isDirectory => "Is a directory (os error 21)"
  | .invalidText => "stream did not contain valid UTF-8"

end DataMigration
