import DataMigration.CommandLine.Execute

/-!
# Files on disk

The files that a command has to be given before it is executed, and the changes that it leaves to
be made.
-/

namespace DataMigration

/-- The files that a configuration names. -/
def Config.fileNames (c : Config) : List String :=
  c.mappingFile.toList ++ c.sources.filterMap (·.filePath)

/-- The nodes that were not the same before. -/
def Files.changes (before after : Files) : List (List String × FileNode) :=
  after.nodes.filter fun e => before.nodes.lookup e.1 != some e.2

namespace CommandLine.Command

/-- The places of registered documents. -/
def places : Command → RegistryPlaces
  | .run _ _ places _ _ _ => places
  | .validateMapping _ places => places
  | .inferSchema .. => {}
  | .preview _ _ _ _ places => places

/-- The command looks for documents in directories. -/
def usesDirectories (c : Command) : Bool := c.places.schemas.isSome || c.places.mappings.isSome

/-- The files that the command line names. -/
def fileNames : Command → List String
  | .run config mapping _ _ _ _ => config :: mapping.toList
  | .validateMapping mapping _ => [mapping]
  | .inferSchema samples _ _ _ => [samples]
  | .preview record mapping _ _ _ => [record, mapping]

/-- The files that those on the command line name. -/
def furtherFileNames (fs : Files) : Command → List String
  | .run config _ _ _ _ _ =>
    match Config.load fs config with
    | .ok c => c.fileNames
    | .error _ => []
  | _ => []

end CommandLine.Command

end DataMigration
