import DataMigration.Mapping.Entity

/-!
# Mappings

A named set of entity mappings that serve one migration, in the order in which they are written.
-/

namespace DataMigration

/-- The entity mappings of a migration. -/
structure Mapping where
  name : String
  version : String := "1.0"
  description : String := ""
  sourceServices : List String := []
  targetService : String := ""
  entities : List EntityMapping := []
  /-- What is loaded first: names of entity mappings or target entities. -/
  order : List String := []
  functions : Dict (Dict Value) := []
  /-- Tables of labels for the operator `enum_map`. -/
  labels : Dict (Dict String) := []
  deriving DecidableEq

namespace Mapping

/-- Adds an entity mapping, and its source service if it is new. -/
def withEntity (m : Mapping) (e : EntityMapping) : Mapping :=
  { m with
    sourceServices :=
      if m.sourceServices.contains e.source.service then m.sourceServices
      else m.sourceServices ++ [e.source.service]
    entities := m.entities ++ [e] }

/-- The first entity mapping with a name. -/
def entity? (m : Mapping) (name : String) : Option EntityMapping :=
  m.entities.find? fun e => e.name == name

/-- The mapping as a document. -/
def toValue (m : Mapping) : Value :=
  .obj [("name", .str m.name), ("version", .str m.version), ("description", .str m.description),
    ("source_services", .texts m.sourceServices), ("target_service", .str m.targetService),
    ("mappings", .obj (m.entities.map fun e => (e.name, e.toValue))),
    ("migration_order", .texts m.order),
    ("transform_functions", Value.ofDict Value.obj m.functions),
    ("status_mappings", Value.ofDict (Value.ofDict Value.str) m.labels)]

/-- An entity mapping that stands under a key, which is its name unless it has one. -/
def entryOfTree? (e : String × Tree) : Option EntityMapping :=
  (EntityMapping.ofTree? e.2).map fun m => { m with name := if m.name = "" then e.1 else m.name }

/-- The entity mappings of a document, in their order. -/
def entriesOfTree? (t : Tree) : Option (List EntityMapping) := t.entries?.bind (·.mapM entryOfTree?)

/-- The mapping that a document holds. -/
def ofTree? (t : Tree) : Option Mapping := do
  let r ← Record.ofTree? (fieldNames ["name", "version", "description", "source_services",
    "target_service", "mappings", "migration_order", "transform_functions", "status_mappings"]) t
  some {
    name := ← r.required "name" Tree.text?
    version := ← r.withDefault "version" "1.0" Tree.text?
    description := ← r.withDefault "description" "" Tree.text?
    sourceServices := ← r.withDefault "source_services" [] (Tree.listOf? Tree.text?)
    targetService := ← r.withDefault "target_service" "" Tree.text?
    entities := ← r.withDefault "mappings" [] entriesOfTree?
    order := ← r.withDefault "migration_order" [] (Tree.listOf? Tree.text?)
    functions := ← r.withDefault "transform_functions" [] (Tree.dictOf? Tree.object?)
    labels := ← r.withDefault "status_mappings" [] (Tree.dictOf? (Tree.dictOf? Tree.text?)) }

end Mapping

end DataMigration
