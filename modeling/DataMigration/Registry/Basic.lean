import DataMigration.Mapping.Document
import DataMigration.Schema.Document
import DataMigration.Text.Case

/-!
# The registry

The schemas of services and the mappings that are known. Names of services and mappings are found
in any case.
-/

namespace DataMigration

/-- Schemas and mappings by their names in lower case. -/
structure Registry where
  schemas : Dict ServiceSchema := []
  mappings : Dict Mapping := []

/-- Why the registry cannot answer. -/
inductive RegistryError where
  | schemaNotFound (name : String)
  | mappingNotFound (name : String)
  | file (path : String) (reason : FileError)

/-- The wording of a registry error. -/
def RegistryError.message : RegistryError → String
  | .schemaNotFound name => "Schema not found: " ++ name
  | .mappingNotFound name => "Mapping not found: " ++ name
  | .file path reason => "Failed to access " ++ path ++ ": " ++ reason.message

namespace Registry

/-- Adds a schema in place of the one of the same name. -/
def addSchema (r : Registry) (s : ServiceSchema) : Registry :=
  { r with schemas := Dict.insert r.schemas (Text.toLower s.name) s }

/-- Adds a mapping in place of the one of the same name. -/
def addMapping (r : Registry) (m : Mapping) : Registry :=
  { r with mappings := Dict.insert r.mappings (Text.toLower m.name) m }

/-- The schema of a service. -/
def schema? (r : Registry) (service : String) : Option ServiceSchema :=
  Dict.get? r.schemas (Text.toLower service)

/-- The schema of an entity. -/
def entitySchema? (r : Registry) (e : EntityRef) : Option EntitySchema :=
  (r.schema? e.service).bind fun s => Dict.get? s.entities e.entity

/-- The mapping with a name. -/
def mapping? (r : Registry) (name : String) : Option Mapping :=
  Dict.get? r.mappings (Text.toLower name)

/-- The first entity mapping from one entity to the other, mapping by mapping. -/
def entityMapping? (r : Registry) (source target : EntityRef) : Option EntityMapping :=
  (r.mappings.values.flatMap Mapping.entities).find? fun m => m.leads source target

/-- The names of the schemas. -/
def schemaNames (r : Registry) : List String := r.schemas.keys

/-- The names of the mappings. -/
def mappingNames (r : Registry) : List String := r.mappings.keys

/-- The entities of a service. -/
def entityNames (r : Registry) (service : String) : List String :=
  ((r.schema? service).map fun s => s.entities.keys).getD []

/-- The schema of a service as a document. -/
def schemaText (r : Registry) (service : String) : Except RegistryError String :=
  match r.schema? service with
  | none => .error (.schemaNotFound service)
  | some s => .ok (Json.pretty s.toValue)

/-- A mapping as a document, in YAML or JSON. -/
def mappingText (r : Registry) (name : String) (yaml : Bool) : Except RegistryError String :=
  match r.mapping? name with
  | none => .error (.mappingNotFound name)
  | some m => .ok (if yaml then m.toYaml else Json.pretty m.toValue)

end Registry

end DataMigration
