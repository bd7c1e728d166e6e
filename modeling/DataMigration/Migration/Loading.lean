import DataMigration.Mapping.Order
import DataMigration.Migration.Transforming
import DataMigration.Record.Merge

/-!
# The loading phase

The records of each target entity are loaded in batches, the entities in the order of the mapping.
Duplicates are merged before that if the configuration asks for it.
-/

namespace DataMigration.Migration

variable {σ : Type}

/-- The target entities that have a working set, in the order in which they are loaded. -/
def loadEntities (mapping : Mapping) (working : List WorkingSet) : List String :=
  let present := working.map fun w => w.target.entity
  Mapping.firsts ((mapping.targetOrder.filter fun e => present.contains e) ++ present)

/-- The records of a target entity. -/
def entityRecords (working : List WorkingSet) (entity : String) : List TargetRecord :=
  (working.filter fun w => w.target.entity == entity).flatMap WorkingSet.records

/-- The records of an entity that are sent. -/
def recordsToLoad (m : Migration σ) (working : List WorkingSet) (entity : String) :
    List TargetRecord :=
  let records := entityRecords working entity
  if m.config.deduplication.isEmpty then records
  else TargetRecord.deduplicate (m.config.dedupKey entity) m.config.preferredSource records

/-- The counters and problems of a batch on its step. -/
def countLoad (r : LoadResult) (step : Step) : Step :=
  { step with
    processed := step.processed + r.attempted
    succeeded := step.succeeded + r.succeeded
    failed := step.failed + r.failed
    skipped := step.skipped + r.skipped
    errors := step.errors ++ r.errors }

/-- The work on the batches of one entity: the state, the step and the number of batches done. -/
structure Sending (σ : Type) where
  state : MigrationState σ
  step : Step
  sent : Nat := 0

/-- Sends a batch, and takes down what came of it. -/
def send (m : Migration σ) (loader : Loader (Target σ)) (batch : Batch) (s : MigrationState σ) :
    MigrationState σ × LoadResult :=
  let s := s.note m (.load batch)
  let (r, target) := loader.loadBatch batch.records batch.entity batch.upsert s.target
  ({ s with
      target
      failures := s.failures + r.failed
      run := s.run.noteCreated batch.entity r.created }, r)

/-- Sends a batch of an entity, and sees whether to go on. -/
def loadBatch (m : Migration σ) (loader : Loader (Target σ)) (entity : String)
    (total count : Nat) (w : Sending σ) (records : List TargetRecord) :
    Sending σ × Option (Stop MigrationError) :=
  let (s, r) := m.send loader ⟨entity, records, m.config.upsert⟩ w.state
  let step := countLoad r w.step
  let s := s.emit (.ofProgress .loading step total
    ("Loaded batch " ++ natText (w.sent + 1) ++ " of " ++ natText count))
  let (s, stop) := (s.checkBudget m .loading).andThen (MigrationState.checkpoint m)
  ({ state := s, step, sent := w.sent + 1 }, stop)

/-- The number of batches that is told, in machine words. -/
def batchCount (size total : Nat) : Nat := (total + size - 1) % Nat.pow 2 64 / size

/-- Sends the records of an entity, batch by batch. -/
def loadRecords (m : Migration σ) (loader : Loader (Target σ)) (entity : String)
    (records : List TargetRecord) (s : MigrationState σ) (step : Step) :
    Sending σ × Option (Stop MigrationError) :=
  let count := batchCount m.config.batchSize records.length
  overBatches (m.loadBatch loader entity records.length count) (batches m.config.batchSize records)
    { state := s, step }

/-- The step of one entity. -/
def loadStep (m : Migration σ) (loader : Loader (Target σ)) (entity : String)
    (s : MigrationState σ) : Progressed σ :=
  let (s, step) := s.newStep m ("Load " ++ entity) entity .loading
  let records := m.recordsToLoad s.working entity
  let step := { step with skipped := (entityRecords s.working entity).length - records.length }
  let s := { s with loadedEntities := s.loadedEntities ++ [entity] }
  let (w, stop) := m.loadRecords loader entity records s step
  (w.state.endStep m w.step stop, stop)

/-- The steps of entities. -/
def loadAll (m : Migration σ) (loader : Loader (Target σ)) :
    List String → MigrationState σ → Progressed σ
  | [], s => (s, none)
  | entity :: rest, s => (m.loadStep loader entity s).andThen (loadAll m loader rest)

/-- The loading phase. -/
def runLoading (m : Migration σ) (mapping : Mapping) (s : MigrationState σ) : Progressed σ :=
  match m.connectors.loader m.config with
  | .error stop => (s, some (stop.map .loader))
  | .ok loader =>
    if loader.connected then
      let s := { s with loader := some loader, target := { s.target with memory := [] } }
      m.loadAll loader (loadEntities mapping s.working) s
    else (s, some (.error (.unconnected m.config.targetService)))

end DataMigration.Migration
