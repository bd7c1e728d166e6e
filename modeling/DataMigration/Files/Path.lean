import DataMigration.Text.Cut

/-!
# File paths

Paths are texts of names between slashes. Empty names and single dots lead nowhere.
-/

namespace DataMigration.FilePath

/-- The names of a path. -/
def names (path : String) : List String :=
  (Text.split '/' path).filter fun name => name != "" && name != "."

/-- A path that starts at the root of all files. -/
def isAbsolute (path : String) : Bool := Text.startsWith "/" path

/-- A path that has to lead to a directory. -/
def wantsDirectory (path : String) : Bool := Text.endsWith "/" path || Text.endsWith "/." path

/-- A path below a directory. -/
def join (directory path : String) : String :=
  if directory = "" ∨ isAbsolute path then path
  else if Text.endsWith "/" directory then directory ++ path
  else directory ++ "/" ++ path

/-- Without the slashes and single dots at the end, on reversed characters. -/
def dropEnd : List Char → List Char
  | '/' :: cs => dropEnd cs
  | '.' :: '/' :: cs => dropEnd cs
  | cs => cs

/-- The path of the directory that holds the last name; a single name has the empty one. -/
def parent? (path : String) : Option String :=
  match dropEnd path.toList.reverse with
  | [] => none
  | cs => some (String.ofList (dropEnd (cs.dropWhile (· != '/'))).reverse)

/-- What follows the last dot of the last name, unless the name starts with that dot. -/
def extension? (path : String) : Option String :=
  match (names path).getLast? with
  | none => none
  | some name =>
    if name = ".." then none
    else
      let cs := name.toList.reverse
      match cs.dropWhile (· != '.') with
      | _ :: _ :: _ => some (String.ofList (cs.takeWhile (· != '.')).reverse)
      | _ => none

end DataMigration.FilePath
