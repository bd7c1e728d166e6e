import DataMigration.Schema.Field

/-!
# Entity and service schemas

The fields of a record type of a service, and the record types of a service.
-/

namespace DataMigration

/-- The contract of the records of one entity. -/
structure EntitySchema where
  name : String := ""
  description : String := ""
  endpoint : String := ""
  fields : Dict FieldSchema := []
  primaryKey : String := "id"

namespace EntitySchema

/-- Adds a field under its own name. -/
def withField (s : EntitySchema) (f : FieldSchema) : EntitySchema :=
  { s with fields := Dict.insert s.fields f.info.name f }

/-- The field with a name. -/
def field? (s : EntitySchema) (name : String) : Option FieldSchema := Dict.get? s.fields name

/-- The names of the required fields, in order. -/
def requiredFields (s : EntitySchema) : List String :=
  (s.fields.filter fun e => e.2.info.required).map (·.1)

/-- The entity in its place: it and its fields have names. -/
def placed (name : String) (s : EntitySchema) : EntitySchema :=
  { s with
    name := if s.name = "" then name else s.name
    fields := FieldSchema.placedAll s.fields }

/-- The entity as a document. -/
def toValue (s : EntitySchema) : Value :=
  .obj ([("name", .str s.name)] ++ Value.textField "description" s.description ++
    Value.textField "api_endpoint" s.endpoint ++
    [("fields", Value.obj (FieldSchema.toFields s.fields)), ("primary_key", .str s.primaryKey)])

/-- The entity that a document holds. -/
def ofTree? (t : Tree) : Option EntitySchema := do
  let r ← Record.ofTree?
    (fieldNames ["name", "description", "api_endpoint", "fields", "primary_key"]) t
  some {
    name := ← r.withDefault "name" "" Tree.text?
    description := ← r.withDefault "description" "" Tree.text?
    endpoint := ← r.withDefault "api_endpoint" "" Tree.text?
    fields := ← r.withDefault "fields" [] (Tree.dictOf? FieldSchema.ofTree?)
    primaryKey := ← r.withDefault "primary_key" "id" Tree.text? }

end EntitySchema

/-- The contracts of the entities of one service. -/
structure ServiceSchema where
  name : String
  version : String := ""
  description : String := ""
  entities : Dict EntitySchema := []
  apiVersion : String := ""
  baseUrl : String := ""

namespace ServiceSchema

/-- The service with names for its entities and fields. -/
def placed (s : ServiceSchema) : ServiceSchema :=
  { s with entities := s.entities.map fun e => (e.1, e.2.placed e.1) }

/-- The service as a document. -/
def toValue (s : ServiceSchema) : Value :=
  .obj ([("name", .str s.name)] ++ Value.textField "version" s.version ++
    Value.textField "description" s.description ++
    [("entities", Value.ofDict EntitySchema.toValue s.entities)] ++
    Value.textField "api_version" s.apiVersion ++ Value.textField "base_url" s.baseUrl)

/-- The service that a document holds. -/
def ofTree? (t : Tree) : Option ServiceSchema := do
  let r ← Record.ofTree?
    (fieldNames ["name", "version", "description", "entities", "api_version", "base_url"]) t
  some {
    name := ← r.required "name" Tree.text?
    version := ← r.withDefault "version" "" Tree.text?
    description := ← r.withDefault "description" "" Tree.text?
    entities := ← r.withDefault "entities" [] (Tree.dictOf? EntitySchema.ofTree?)
    apiVersion := ← r.withDefault "api_version" "" Tree.text?
    baseUrl := ← r.withDefault "base_url" "" Tree.text? }

end ServiceSchema

end DataMigration
