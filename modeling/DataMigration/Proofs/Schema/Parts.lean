import DataMigration.Proofs.Document.Fields
import DataMigration.Schema.Entity

/-!
# Schemas and the parts of their documents

Each record type of a schema is read exactly when the parts of its record are.
-/

namespace DataMigration

namespace FieldSchema

theorem apart_shape : FieldName.Apart shape := by decide

theorem infoOf?_eq_some_iff {r : Record} {info : FieldInfo} :
    infoOf? r = some info ↔
      r.withDefault "name" "" Tree.text? = some info.name ∧
      (r.withDefault "type" .string fun t => t.text?.map FieldType.ofName) = some info.type ∧
      r.withDefault "description" "" Tree.text? = some info.description ∧
      r.withDefault "required" false Tree.bool? = some info.required ∧
      r.optional "max_length" Tree.word? = some info.maxLength ∧
      r.optional "enum" (Tree.listOf? Tree.text?) = some info.allowed ∧
      r.optional "default" Tree.value? = some info.default ∧
      r.optional "example" Tree.value? = some info.sample ∧
      r.withDefault "notes" "" Tree.text? = some info.notes := by
  simp only [infoOf?, Option.bind_eq_bind, Option.bind_eq_some_iff, Option.some.injEq]
  constructor
  · rintro ⟨_, name, _, type, _, description, _, required, _, maxLength, _, allowed, _, default, _,
      sample, _, notes, rfl⟩
    exact ⟨name, type, description, required, maxLength, allowed, default, sample, notes⟩
  · rintro ⟨name, type, description, required, maxLength, allowed, default, sample, notes⟩
    exact ⟨_, name, _, type, _, description, _, required, _, maxLength, _, allowed, _, default, _,
      sample, _, notes, rfl⟩

theorem ofTreeWithin?_succ_eq_some_iff {depth : Nat} {t : Tree} {s : FieldSchema} :
    ofTreeWithin? (depth + 1) t = some s ↔ ∃ r, Record.ofTree? shape t = some r ∧
      infoOf? r = some s.info ∧
      r.optional "properties" (Tree.dictOf? (ofTreeWithin? depth)) = some s.properties ∧
      r.optional "items" (ofTreeWithin? depth) = some s.items := by
  simp only [ofTreeWithin?, Option.bind_eq_bind, Option.bind_eq_some_iff, Option.some.injEq]
  constructor
  · rintro ⟨r, record, _, info, _, properties, _, items, rfl⟩
    exact ⟨r, record, info, properties, items⟩
  · rintro ⟨r, record, info, properties, items⟩
    exact ⟨r, record, _, info, _, properties, _, items, by cases s; rfl⟩

end FieldSchema

namespace EntitySchema

/-- The names of the fields of an entity schema. -/
def fieldNames : List String := ["name", "description", "api_endpoint", "fields", "primary_key"]

theorem apart_fieldNames : FieldName.Apart (DataMigration.fieldNames fieldNames) := by decide

theorem ofTree?_eq_some_iff {t : Tree} {s : EntitySchema} :
    ofTree? t = some s ↔ ∃ r, Record.ofTree? (DataMigration.fieldNames fieldNames) t = some r ∧
      r.withDefault "name" "" Tree.text? = some s.name ∧
      r.withDefault "description" "" Tree.text? = some s.description ∧
      r.withDefault "api_endpoint" "" Tree.text? = some s.endpoint ∧
      r.withDefault "fields" [] (Tree.dictOf? FieldSchema.ofTree?) = some s.fields ∧
      r.withDefault "primary_key" "id" Tree.text? = some s.primaryKey := by
  simp only [ofTree?, fieldNames, Option.bind_eq_bind, Option.bind_eq_some_iff, Option.some.injEq]
  constructor
  · rintro ⟨r, record, _, name, _, description, _, endpoint, _, fields, _, primaryKey, rfl⟩
    exact ⟨r, record, name, description, endpoint, fields, primaryKey⟩
  · rintro ⟨r, record, name, description, endpoint, fields, primaryKey⟩
    exact ⟨r, record, _, name, _, description, _, endpoint, _, fields, _, primaryKey, rfl⟩

end EntitySchema

namespace ServiceSchema

/-- The names of the fields of a service schema. -/
def fieldNames : List String :=
  ["name", "version", "description", "entities", "api_version", "base_url"]

theorem apart_fieldNames : FieldName.Apart (DataMigration.fieldNames fieldNames) := by decide

theorem ofTree?_eq_some_iff {t : Tree} {s : ServiceSchema} :
    ofTree? t = some s ↔ ∃ r, Record.ofTree? (DataMigration.fieldNames fieldNames) t = some r ∧
      r.required "name" Tree.text? = some s.name ∧
      r.withDefault "version" "" Tree.text? = some s.version ∧
      r.withDefault "description" "" Tree.text? = some s.description ∧
      r.withDefault "entities" [] (Tree.dictOf? EntitySchema.ofTree?) = some s.entities ∧
      r.withDefault "api_version" "" Tree.text? = some s.apiVersion ∧
      r.withDefault "base_url" "" Tree.text? = some s.baseUrl := by
  simp only [ofTree?, fieldNames, Option.bind_eq_bind, Option.bind_eq_some_iff, Option.some.injEq]
  constructor
  · rintro ⟨r, record, _, name, _, version, _, description, _, entities, _, apiVersion, _, baseUrl,
      rfl⟩
    exact ⟨r, record, name, version, description, entities, apiVersion, baseUrl⟩
  · rintro ⟨r, record, name, version, description, entities, apiVersion, baseUrl⟩
    exact ⟨r, record, _, name, _, version, _, description, _, entities, _, apiVersion, _, baseUrl,
      rfl⟩

end ServiceSchema

end DataMigration
