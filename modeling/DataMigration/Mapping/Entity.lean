import DataMigration.Mapping.Field

/-!
# Entity mappings

How the records of one source entity become records of one target entity.
-/

namespace DataMigration

/-- An entity of a service, written `service.entity`. -/
structure EntityRef where
  service : String
  entity : String
  deriving DecidableEq, Repr

namespace EntityRef

/-- The written form. -/
def text (r : EntityRef) : String := r.service ++ "." ++ r.entity

/-- Reads the written form. The first dot ends the service; neither part is empty. -/
def ofText? (s : String) : Option EntityRef := do
  let (service, entity) ← Text.cut? "." s
  if service = "" ∨ entity = "" then none else some ⟨service, entity⟩

/-- The same entity, whatever the case of ASCII letters. -/
def same (a b : EntityRef) : Bool :=
  Text.sameIgnoringCase a.service b.service && Text.sameIgnoringCase a.entity b.entity

end EntityRef

/-- The field mappings from one source entity to one target entity. -/
structure EntityMapping where
  name : String
  source : EntityRef
  target : EntityRef
  description : String := ""
  fields : List FieldMapping := []
  /-- What has to be loaded first: names of entity mappings or target entities. -/
  dependencies : List String := []
  notes : String := ""
  deriving DecidableEq

namespace EntityMapping

/-- The mapping goes by this name, or it fills the entity of this name. -/
def answersTo (m : EntityMapping) (name : String) : Bool :=
  Text.sameIgnoringCase m.name name || Text.sameIgnoringCase m.target.entity name

/-- The mapping leads from one entity to the other. -/
def leads (m : EntityMapping) (source target : EntityRef) : Bool :=
  m.source.same source && m.target.same target

/-- The mapping as a document. Its name is the key under which it stands. -/
def toValue (m : EntityMapping) : Value :=
  .obj [("source", .str m.source.text), ("target", .str m.target.text),
    ("description", .str m.description),
    ("field_mappings", .arr (m.fields.map FieldMapping.toValue)),
    ("dependencies", .texts m.dependencies), ("notes", .str m.notes)]

/-- The mapping that a document holds. -/
def ofTree? (t : Tree) : Option EntityMapping := do
  let r ← Record.ofTree? (fieldNames ["name", "source", "target", "description", "field_mappings",
    "dependencies", "notes"]) t
  some {
    name := ← r.withDefault "name" "" Tree.text?
    source := ← r.required "source" fun t => t.text?.bind EntityRef.ofText?
    target := ← r.required "target" fun t => t.text?.bind EntityRef.ofText?
    description := ← r.withDefault "description" "" Tree.text?
    fields := ← r.withDefault "field_mappings" [] (Tree.listOf? FieldMapping.ofTree?)
    dependencies := ← r.withDefault "dependencies" [] (Tree.listOf? Tree.text?)
    notes := ← r.withDefault "notes" "" Tree.text? }

end EntityMapping

end DataMigration
