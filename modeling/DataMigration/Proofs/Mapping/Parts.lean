import DataMigration.Mapping.Basic
import DataMigration.Proofs.Document.Fields

/-!
# Mappings and the parts of their documents

Each record type of a mapping is read exactly when the parts of its record are.
-/

namespace DataMigration

theorem FieldMapping.apart_shape : FieldName.Apart FieldMapping.shape := by decide

theorem FieldMapping.ofTree?_eq_some_iff {t : Tree} {m : FieldMapping} :
    ofTree? t = some m ↔ ∃ r, Record.ofTree? shape t = some r ∧
      r.optional "source_field" Tree.text? = some m.source ∧
      r.required "target_field" Tree.text? = some m.target ∧
      (r.withDefault "transform" .direct fun t => t.text?.map Operator.ofName) = some m.operator ∧
      r.withDefault "transform_config" [] Tree.object? = some m.config ∧
      r.withDefault "notes" "" Tree.text? = some m.notes ∧
      r.withDefault "required" false Tree.bool? = some m.required ∧
      r.optional "default" Tree.value? = some m.default ∧
      r.optional "condition" Tree.text? = some m.condition := by
  simp only [ofTree?, Option.bind_eq_bind, Option.bind_eq_some_iff, Option.some.injEq]
  constructor
  · rintro ⟨r, record, _, source, _, target, _, operator, _, config, _, notes, _, required, _,
      default, _, condition, rfl⟩
    exact ⟨r, record, source, target, operator, config, notes, required, default, condition⟩
  · rintro ⟨r, record, source, target, operator, config, notes, required, default, condition⟩
    exact ⟨r, record, _, source, _, target, _, operator, _, config, _, notes, _, required, _,
      default, _, condition, rfl⟩

namespace EntityMapping

/-- The names of the fields of an entity mapping. -/
def fieldNames : List String :=
  ["name", "source", "target", "description", "field_mappings", "dependencies", "notes"]

theorem apart_fieldNames : FieldName.Apart (DataMigration.fieldNames fieldNames) := by decide

theorem ofTree?_eq_some_iff {t : Tree} {m : EntityMapping} :
    ofTree? t = some m ↔ ∃ r, Record.ofTree? (DataMigration.fieldNames fieldNames) t = some r ∧
      r.withDefault "name" "" Tree.text? = some m.name ∧
      (r.required "source" fun t => t.text?.bind EntityRef.ofText?) = some m.source ∧
      (r.required "target" fun t => t.text?.bind EntityRef.ofText?) = some m.target ∧
      r.withDefault "description" "" Tree.text? = some m.description ∧
      r.withDefault "field_mappings" [] (Tree.listOf? FieldMapping.ofTree?) = some m.fields ∧
      r.withDefault "dependencies" [] (Tree.listOf? Tree.text?) = some m.dependencies ∧
      r.withDefault "notes" "" Tree.text? = some m.notes := by
  simp only [ofTree?, fieldNames, Option.bind_eq_bind, Option.bind_eq_some_iff, Option.some.injEq]
  constructor
  · rintro ⟨r, record, _, name, _, source, _, target, _, description, _, fields, _, dependencies, _,
      notes, rfl⟩
    exact ⟨r, record, name, source, target, description, fields, dependencies, notes⟩
  · rintro ⟨r, record, name, source, target, description, fields, dependencies, notes⟩
    exact ⟨r, record, _, name, _, source, _, target, _, description, _, fields, _, dependencies, _,
      notes, rfl⟩

end EntityMapping

namespace Mapping

/-- The names of the fields of a mapping. -/
def fieldNames : List String :=
  ["name", "version", "description", "source_services", "target_service", "mappings",
    "migration_order", "transform_functions", "status_mappings"]

theorem apart_fieldNames : FieldName.Apart (DataMigration.fieldNames fieldNames) := by decide

theorem ofTree?_eq_some_iff {t : Tree} {m : Mapping} :
    ofTree? t = some m ↔ ∃ r, Record.ofTree? (DataMigration.fieldNames fieldNames) t = some r ∧
      r.required "name" Tree.text? = some m.name ∧
      r.withDefault "version" "1.0" Tree.text? = some m.version ∧
      r.withDefault "description" "" Tree.text? = some m.description ∧
      r.withDefault "source_services" [] (Tree.listOf? Tree.text?) = some m.sourceServices ∧
      r.withDefault "target_service" "" Tree.text? = some m.targetService ∧
      r.withDefault "mappings" [] entriesOfTree? = some m.entities ∧
      r.withDefault "migration_order" [] (Tree.listOf? Tree.text?) = some m.order ∧
      r.withDefault "transform_functions" [] (Tree.dictOf? Tree.object?) = some m.functions ∧
      r.withDefault "status_mappings" [] (Tree.dictOf? (Tree.dictOf? Tree.text?)) =
        some m.labels := by
  simp only [ofTree?, fieldNames, Option.bind_eq_bind, Option.bind_eq_some_iff, Option.some.injEq]
  constructor
  · rintro ⟨r, record, _, name, _, version, _, description, _, services, _, target, _, entities, _,
      order, _, functions, _, labels, rfl⟩
    exact ⟨r, record, name, version, description, services, target, entities, order, functions,
      labels⟩
  · rintro ⟨r, record, name, version, description, services, target, entities, order, functions,
      labels⟩
    exact ⟨r, record, _, name, _, version, _, description, _, services, _, target, _, entities, _,
      order, _, functions, _, labels, rfl⟩

end Mapping

end DataMigration
