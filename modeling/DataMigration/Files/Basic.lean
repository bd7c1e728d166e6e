import DataMigration.Files.Error
import DataMigration.Files.Path

/-!
# Files

The files and directories below the working directory. Operations give the store after them, or
say why they cannot be done.
-/

namespace DataMigration

/-- A file with its text, or a directory. -/
inductive FileNode where
  | directory
  | file (text : String)
  deriving DecidableEq, Repr

/-- Files and directories by the names that lead to them. -/
structure Files where
  nodes : List (List String × FileNode) := []
  deriving DecidableEq, Repr

namespace Files

/-- What stands at a place. The working directory is always there. -/
def at? (fs : Files) : List String → Option FileNode
  | [] => some .directory
  | names => fs.nodes.lookup names

/-- Puts a node at a place. -/
def put (fs : Files) (names : List String) (node : FileNode) : Files :=
  ⟨(names, node) :: fs.nodes.filter fun e => e.1 != names⟩

/-- Follows names from a place that is a directory. The last name need not exist. -/
def follow (fs : Files) : List String → List String → Except FileError (List String)
  | place, [] => .ok place
  | place, name :: names =>
    let next := if name = ".." then place.dropLast else place ++ [name]
    match fs.at? next, names with
    | some .directory, _ => follow fs next names
    | _, [] => .ok next
    | some (.file _), _ :: _ => .error .notDirectory
    | none, _ :: _ => .error .notFound

/-- The place that a path leads to. -/
def place (fs : Files) (path : String) : Except FileError (List String) :=
  if path = "" ∨ FilePath.isAbsolute path then .error .notFound
  else fs.follow [] (FilePath.names path)

/-- What stands at the end of a path. -/
def node (fs : Files) (path : String) : Except FileError FileNode :=
  match fs.place path with
  | .error e => .error e
  | .ok place =>
    match fs.at? place with
    | none => .error .notFound
    | some .directory => .ok .directory
    | some (.file text) =>
      if FilePath.wantsDirectory path then .error .notDirectory else .ok (.file text)

/-- Something stands at the end of a path. -/
def isThere (fs : Files) (path : String) : Bool := (fs.node path).isOk

/-- A directory stands at the end of a path. -/
def isDirectory (fs : Files) (path : String) : Bool :=
  match fs.node path with
  | .ok .directory => true
  | _ => false

/-- The text of a file. -/
def read (fs : Files) (path : String) : Except FileError String :=
  match fs.node path with
  | .error e => .error e
  | .ok .directory => .error .isDirectory
  | .ok (.file text) => .ok text

/-- Writes a file into a directory that exists. -/
def write (fs : Files) (path text : String) : Except FileError Files :=
  match fs.place path with
  | .error e => .error e
  | .ok place =>
    match fs.at? place with
    | some .directory => .error .isDirectory
    | some (.file _) =>
      if FilePath.wantsDirectory path then .error .notDirectory else .ok (fs.put place (.file text))
    | none =>
      if FilePath.wantsDirectory path then .error .isDirectory else .ok (fs.put place (.file text))

/-- Makes one directory, or follows it if it is there. -/
def enter (fs : Files) (place : List String) (name : String) :
    Except FileError (Files × List String) :=
  let next := if name = ".." then place.dropLast else place ++ [name]
  match fs.at? next with
  | some .directory => .ok (fs, next)
  | some (.file _) => .error .exists
  | none => .ok (fs.put next .directory, next)

/-- Makes the directories that names lead through. A file on the way is no directory; a file at the
end stands where the last one should be. -/
def enterAll (fs : Files) : List String → List String → Except FileError Files
  | _, [] => .ok fs
  | place, name :: names =>
    match fs.enter place name with
    | .error e => .error (if names.isEmpty then e else .notDirectory)
    | .ok (fs, next) => enterAll fs next names

/-- Makes a directory and those above it. -/
def makeDirectories (fs : Files) (path : String) : Except FileError Files :=
  if path = "" then .ok fs
  else if FilePath.isAbsolute path then .error .denied
  else fs.enterAll [] (FilePath.names path)

/-- Writes a file after making the directories above it. -/
def writeBelow (fs : Files) (path text : String) : Except (String × FileError) Files :=
  let parent := (FilePath.parent? path).getD ""
  match fs.makeDirectories parent with
  | .error e => .error (parent, e)
  | .ok fs =>
    match fs.write path text with
    | .error e => .error (path, e)
    | .ok fs => .ok fs

/-- Names in the order of their characters. -/
def namesLe : List String → List String → Bool
  | [], _ => true
  | _ :: _, [] => false
  | a :: as, b :: bs => if a = b then namesLe as bs else decide (a < b)

/-- The files below a place, in order, each with the names that lead to it from there. -/
def below (fs : Files) (place : List String) : List (List String × String) :=
  (fs.nodes.filterMap fun e =>
    match e.2 with
    | .file text =>
      if place.isPrefixOf e.1 then some (e.1.drop place.length, text) else none
    | .directory => none).mergeSort fun a b => namesLe a.1 b.1

/-- Files given by their paths; the directories above them are made. -/
def ofEntries (entries : List (String × String)) : Files :=
  entries.foldl
    (fun fs e =>
      match fs.writeBelow e.1 e.2 with
      | .ok fs => fs
      | .error _ => fs)
    {}

end Files

end DataMigration
