import DataMigration.Migration.Transforming

/-!
# The validation phase

Every working set is held against the schema of its entity. Records with errors are dropped; those
that stay are valid, whether or not there is a schema.
-/

namespace DataMigration.Migration

variable {σ : Type}

/-- The record with what is found about it. -/
def validated (m : Migration σ) (schema : Option EntitySchema) (r : TargetRecord) : TargetRecord :=
  match schema with
  | none => r
  | some schema =>
    { r with
      findings := r.findings ++
        Validation.findings m.rules schema m.config.strictValidation r }

/-- The rules that are applied to a record. -/
def ruleCalls (m : Migration σ) (schema : Option EntitySchema) (r : TargetRecord) :
    List Activity :=
  match schema with
  | none => []
  | some schema => (Validation.calls m.rules schema r).map Activity.rule

/-- Validates one record, and keeps it if it may be loaded. -/
def validateOne (m : Migration σ) (schema : Option EntitySchema) (w : Work σ) (r : TargetRecord) :
    Work σ :=
  let w := w.noteAll m (m.ruleCalls schema r)
  let r := m.validated schema r
  if r.isValid then w.succeed.keep { r with status := .validated }
  else w.fail (.ofRecord r.id "Record failed validation" r.findings)

/-- Validates a batch, and sees whether to go on. -/
def validateBatch (m : Migration σ) (schema : Option EntitySchema) (total : Nat) (w : Work σ)
    (batch : List TargetRecord) : Work σ × Option (Stop MigrationError) :=
  (batch.foldl (m.validateOne schema) w).report .validating total "Validated"
    (MigrationState.checkpoint m)

/-- Validates the records of a working set, batch by batch. -/
def validateRecords (m : Migration σ) (schema : Option EntitySchema) (records : List TargetRecord)
    (s : MigrationState σ) (step : Step) : Work σ × Option (Stop MigrationError) :=
  overBatches (m.validateBatch schema records.length) (batches m.config.batchSize records)
    { state := s, step }

/-- The remark on an entity without a schema. -/
def noSchemaWarning (target : EntityRef) : String :=
  "No target schema registered for " ++ target.text ++
    "; records not validated against a schema"

/-- The step of one working set, which gives the set with the records that stay. The set is empty
as long as its records are worked on, and so it stays at a standstill. -/
def validateStep (m : Migration σ) (set : WorkingSet) (s : MigrationState σ) :
    WorkingSet × Progressed σ :=
  let (s, step) := s.newStep m ("Validate " ++ set.target.entity) set.target.entity .validating
  let schema := m.registry.entitySchema? set.target
  let step := if schema.isSome then step
    else { step with warnings := step.warnings ++ [noSchemaWarning set.target] }
  let (w, stop) := m.validateRecords schema set.records s step
  let records := if Stop.isOver stop then w.records else []
  ({ set with records }, w.state.endStep m w.step stop, stop)

/-- The steps of working sets. A set that is not reached stays as it is. -/
def validateAll (m : Migration σ) :
    List WorkingSet → MigrationState σ → List WorkingSet × Progressed σ
  | [], s => ([], s, none)
  | set :: rest, s =>
    match m.validateStep set s with
    | (set, s, none) =>
      let (rest, p) := validateAll m rest s
      (set :: rest, p)
    | (set, s, some e) => (set :: rest, s, some e)

/-- The validation phase. -/
def runValidation (m : Migration σ) (s : MigrationState σ) : Progressed σ :=
  let (working, s, stop) := m.validateAll s.working s
  ({ s with working }, stop)

end DataMigration.Migration
