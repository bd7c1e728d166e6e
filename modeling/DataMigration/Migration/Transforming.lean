import DataMigration.Migration.State

/-!
# The transformation phase

Every entity mapping is applied to the records of its source entity, one record after the other. A
record with errors stays in the working set, so that validation drops it with all that is wrong.
-/

namespace DataMigration.Migration

variable {σ : Type}

/-- What the operators of a mapping may use. -/
def toolbox (m : Migration σ) (mapping : Option Mapping) : Toolbox where
  operators := m.operators
  tables := {
    lookup := m.config.lookupTables
    labels := (mapping.map Mapping.labels).getD [] }

/-- The work on the records of one step: the state, the step and the records that came out. -/
structure Work (σ : Type) where
  state : MigrationState σ
  step : Step
  records : List TargetRecord := []

namespace Work

/-- Counts a record that succeeded. -/
def succeed (w : Work σ) : Work σ :=
  { w with
    step := { w.step with
      processed := w.step.processed + 1
      succeeded := w.step.succeeded + 1 } }

/-- Counts a record that failed. -/
def fail (w : Work σ) (e : StepError) : Work σ :=
  { w with
    step := { w.step with
      processed := w.step.processed + 1
      failed := w.step.failed + 1
      errors := w.step.errors ++ [e] } }

/-- Keeps a record. -/
def keep (w : Work σ) (r : TargetRecord) : Work σ := { w with records := w.records ++ [r] }

/-- Counts a failure against the budget of the run. -/
def spend (w : Work σ) : Work σ :=
  { w with state := { w.state with failures := w.state.failures + 1 } }

/-- Does things that may be watched. -/
def noteAll (m : Migration σ) (w : Work σ) (activities : List Activity) : Work σ :=
  { w with state := activities.foldl (MigrationState.note m) w.state }

/-- Tells how far a phase has come, and goes on with the state alone. -/
def report (w : Work σ) (phase : RunStatus) (total : Nat) (verb : String)
    (f : MigrationState σ → Progressed σ) : Work σ × Option (Stop MigrationError) :=
  let state := w.state.emit (.ofProgress phase w.step total
    (verb ++ " " ++ natText w.step.processed ++ " of " ++ natText total))
  let (state, stop) := f state
  ({ w with state }, stop)

end Work

/-- The findings that transforming a record left. -/
def transformFindings (r : TargetRecord) : List Finding :=
  r.findings.filter fun f => f.kind == .transform

/-- Transforms one record. -/
def transformOne (m : Migration σ) (em : EntityMapping) (tools : Toolbox) (w : Work σ)
    (source : SourceRecord) : Work σ :=
  let w := w.noteAll m ((em.calls tools [source]).map Activity.operator)
  match em.apply tools m.now em.target [source] with
  | .ok r =>
    match transformFindings r with
    | [] => w.succeed.keep r
    | findings => ((w.fail (.ofRecord r.id "Record failed to transform" findings)).spend).keep r
  | .error e => (w.fail (.ofRecord source.id e.message [])).spend

/-- Transforms a batch, and sees whether to go on. -/
def transformBatch (m : Migration σ) (em : EntityMapping) (tools : Toolbox) (total : Nat)
    (w : Work σ) (batch : List SourceRecord) : Work σ × Option (Stop MigrationError) :=
  (batch.foldl (m.transformOne em tools) w).report .transforming total "Transformed" fun s =>
    (s.checkBudget m .transforming).andThen (MigrationState.checkpoint m)

/-- Transforms the records of a source entity, batch by batch. -/
def transformRecords (m : Migration σ) (em : EntityMapping) (tools : Toolbox)
    (sources : List SourceRecord) (s : MigrationState σ) (step : Step) :
    Work σ × Option (Stop MigrationError) :=
  overBatches (m.transformBatch em tools sources.length) (batches m.config.batchSize sources)
    { state := s, step }

/-- Adds records to the working set of their entity. -/
def addRecords (target : EntityRef) (records : List TargetRecord) :
    List WorkingSet → List WorkingSet
  | [] => [⟨target, records⟩]
  | w :: ws =>
    if w.target = target then { w with records := w.records ++ records } :: ws
    else w :: addRecords target records ws

/-- The step of one entity mapping. -/
def transformStep (m : Migration σ) (tools : Toolbox) (em : EntityMapping)
    (s : MigrationState σ) : Progressed σ :=
  let key := recordKey em.source.service em.source.entity
  let (s, step) := s.newStep m
    ("Transform " ++ em.source.entity ++ " to " ++ em.target.entity) em.target.entity .transforming
  match (Dict.get? s.extracted key).getD [] with
  | [] =>
    let step := { step with warnings := step.warnings ++ ["No source data found for " ++ key] }
    (s.finishStep m step none, none)
  | sources =>
    let (w, stop) := m.transformRecords em tools sources s step
    let working :=
      if Stop.isOver stop then addRecords em.target w.records w.state.working else w.state.working
    (MigrationState.endStep m { w.state with working } w.step stop, stop)

/-- The steps of entity mappings. -/
def transformAll (m : Migration σ) (tools : Toolbox) :
    List EntityMapping → MigrationState σ → Progressed σ
  | [], s => (s, none)
  | em :: rest, s => (m.transformStep tools em s).andThen (transformAll m tools rest)

/-- Saves the records of every working set. -/
def saveTransformed (m : Migration σ) (s : MigrationState σ) : MigrationState σ :=
  if m.config.saveTransformed then
    s.working.foldl
      (fun s w => (s.writeArtifact m "transformed" (recordKey w.target.service w.target.entity)
        (.arr (w.records.map TargetRecord.toValue))).1)
      s
  else s

/-- The transformation phase. -/
def runTransformation (m : Migration σ) (mapping : Mapping) (s : MigrationState σ) :
    Progressed σ :=
  (m.transformAll (m.toolbox (some mapping)) mapping.entities s).andThen fun s =>
    (m.saveTransformed s, none)

end DataMigration.Migration
