import DataMigration.Files.Error
import DataMigration.Schema.Entity
import DataMigration.Yaml.Read

/-!
# Schema documents

A service schema written as YAML or JSON. Entities and fields without a name have the one under
which they stand.
-/

namespace DataMigration

/-- Why a schema cannot be read. -/
inductive SchemaError where
  | file (path : String) (reason : FileError)
  | parse
  deriving DecidableEq, Repr

/-- The wording of a schema error. What a text breaks of the grammar is left out. -/
def SchemaError.message : SchemaError → String
  | .file path reason => "Failed to read schema file " ++ path ++ ": " ++ reason.message
  | .parse => "Failed to parse schema document: <detail>"

/-- The service schema that a text holds. -/
def ServiceSchema.ofDocument (text : String) : Except SchemaError ServiceSchema :=
  match (Yaml.read? text).bind ServiceSchema.ofTree? with
  | some s => .ok s.placed
  | none => .error .parse

end DataMigration
