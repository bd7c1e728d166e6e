import DataMigration.Files.Basic
import DataMigration.Registry.Basic

/-!
# Documents of the registry in files

Schemas and mappings are loaded from all documents below a directory; a document that cannot be
read is passed over. Single ones are written to a file.
-/

namespace DataMigration

/-- The schema in a file. -/
def ServiceSchema.load (fs : Files) (path : String) : Except SchemaError ServiceSchema :=
  match fs.read path with
  | .ok text => ofDocument text
  | .error e => .error (.file path e)

/-- The mapping in a file. -/
def Mapping.load (fs : Files) (path : String) : Except MappingError Mapping :=
  match fs.read path with
  | .ok text => ofDocument text
  | .error e => .error (.file path e)

namespace Registry

/-- The endings of documents. -/
def extensions : List String := ["json", "yaml", "yml"]

/-- The name of a document by its ending, in any case. -/
def isDocument (names : List String) : Bool :=
  match names.getLast?.bind FilePath.extension? with
  | some e => extensions.contains (Text.toLower e)
  | none => false

/-- The texts of the documents below a directory, in the order of their paths. -/
def documents (fs : Files) (directory : String) : Except RegistryError (List String) :=
  if !fs.isThere directory then .ok []
  else if !fs.isDirectory directory then .error (.file directory .notDirectory)
  else
    match fs.place directory with
    | .ok place => .ok (((fs.below place).filter fun e => isDocument e.1).map (·.2))
    | .error e => .error (.file directory e)

/-- Loads the schemas below a directory and counts them. -/
def loadSchemas (r : Registry) (fs : Files) (directory : String) :
    Except RegistryError (Registry × Nat) := do
  let loaded := (← documents fs directory).filterMap fun text =>
    (ServiceSchema.ofDocument text).toOption
  return (loaded.foldl addSchema r, loaded.length)

/-- Loads the mappings below a directory and counts them. -/
def loadMappings (r : Registry) (fs : Files) (directory : String) :
    Except RegistryError (Registry × Nat) := do
  let loaded := (← documents fs directory).filterMap fun text =>
    (Mapping.ofDocument text).toOption
  return (loaded.foldl addMapping r, loaded.length)

/-- Writes a text to a file. -/
def save (fs : Files) (path text : String) : Except RegistryError Files :=
  match fs.writeBelow path text with
  | .ok fs => .ok fs
  | .error (path, e) => .error (.file path e)

/-- Writes the schema of a service to a file. -/
def exportSchema (r : Registry) (fs : Files) (service path : String) :
    Except RegistryError Files := do
  save fs path (← r.schemaText service)

/-- A path of a YAML document. -/
def isYaml (path : String) : Bool :=
  FilePath.extension? path == some "yaml" || FilePath.extension? path == some "yml"

/-- Writes a mapping to a file. -/
def exportMapping (r : Registry) (fs : Files) (name path : String) :
    Except RegistryError Files := do
  save fs path (← r.mappingText name (isYaml path))

end Registry

end DataMigration
