import DataMigration.CommandLine.Disk
import Std.Time.DateTime.Timestamp

/-!
# The program

The program works on files below the working directory. It reads those that the command line and
the configuration name. When it is to look into directories of schemas and mappings, the names of
the files in them are read from standard input, one a line:
`find schemas -type f | data-migration validate-mapping map.yaml --schemas schemas`.
-/

namespace DataMigration.CommandLine

/-- The lines of a stream up to its end. -/
partial def readLines (input : IO.FS.Stream) : IO (List String) := do
  let line ← input.getLine
  if line.isEmpty then return []
  return line.trimAsciiEnd.toString :: (← readLines input)

/-- Adds the files that can be read. -/
def readFiles (fs : Files) (names : List String) : IO Files :=
  names.foldlM
    (fun fs (name : String) => do
      try
        match fs.writeBelow name (← IO.FS.readFile name) with
        | .ok fs => return fs
        | .error _ => return fs
      catch _ => return fs)
    fs

/-- Makes a change on disk. -/
def makeChange : List String × FileNode → IO Unit
  | (names, .directory) => IO.FS.createDirAll ("/".intercalate names)
  | (names, .file text) => do
    if names.length > 1 then IO.FS.createDirAll ("/".intercalate names.dropLast)
    IO.FS.writeFile ("/".intercalate names) text

/-- The present instant. -/
def present : IO Calendar.Instant := do
  let nanos := (← Std.Time.Timestamp.now).toNanosecondsSinceUnixEpoch.val
  return ⟨nanos / 1000000000, (nanos % 1000000000).toNat⟩

/-- The files that a command has to be given. -/
def gather (command : Command) : IO Files := do
  let listed ← if command.usesDirectories then readLines (← IO.getStdin) else pure []
  let fs ← readFiles {} (listed ++ command.fileNames)
  readFiles fs (command.furtherFileNames fs)

/-- Does what a command line says and gives the exit status. -/
def perform (words : List String) : IO UInt32 := do
  let files ← match Command.ofWords words with
    | .ok command => gather command
    | .error _ => pure {}
  let reply := execute (← present) files words
  (files.changes reply.files).reverse.forM makeChange
  IO.print reply.output
  IO.eprint reply.errors
  return reply.exit.toUInt32

end DataMigration.CommandLine

/-- Does what the command line says. -/
def main (args : List String) : IO UInt32 := DataMigration.CommandLine.perform args
