import DataMigration.Migration.Validating

/-!
# Previews

One payload is transformed and validated as a run would do it, and nothing is loaded.
-/

namespace DataMigration.Migration

variable {σ : Type}

/-- The entity mapping between two entities: of the mapping at hand, or else of a registered
one. -/
def previewMapping? (m : Migration σ) (mapping : Option Mapping) (source target : EntityRef) :
    Option EntityMapping :=
  (mapping.bind fun mapping => mapping.entities.find? fun em => em.leads source target).or
    (m.registry.entityMapping? source target)

/-- The target record that a payload gives. -/
def preview (m : Migration σ) (mapping : Option Mapping) (payload : Value)
    (source target : EntityRef) : Except MigrationError TargetRecord :=
  match m.previewMapping? mapping source target with
  | none =>
    .error (.config (.setting
      ("No mapping found for " ++ source.text ++ " -> " ++ target.text)))
  | some em =>
    let record : SourceRecord := {
      id := (payloadId? payload).getD "preview"
      service := source.service
      entity := source.entity
      data := payload
      extractedAt := m.now }
    match em.apply (m.toolbox mapping) m.now target [record] with
    | .error e => .error (.transform e)
    | .ok r => .ok (m.validated (m.registry.entitySchema? target) r)

end DataMigration.Migration
