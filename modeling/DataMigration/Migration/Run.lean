import DataMigration.Migration.Extracting
import DataMigration.Migration.Loading
import DataMigration.Migration.Validating
import DataMigration.Registry.Preflight
import DataMigration.Registry.Store

/-!
# Running a migration

The phases follow one another until one of them stops. Whatever error stops it, the run is brought
to an end, its totals are taken and its report is written. Only at a standstill it stays as it is.
-/

namespace DataMigration.Migration

variable {σ : Type}

/-- The mapping to run with: the one at hand, or else the one in the configured file. -/
def resolveMapping (m : Migration σ) (s : MigrationState σ) : Except MigrationError Mapping :=
  match s.mapping, m.config.mappingFile with
  | some mapping, _ => .ok mapping
  | none, some path =>
    match Mapping.load s.files path with
    | .ok mapping => .ok mapping
    | .error e => .error (.mapping e)
  | none, none =>
    .error (.config (.setting "No migration mapping configured; supply a mapping or mapping_file"))

/-- What is wrong with an entity mapping whose schemas are both known. -/
def preflightProblem? (m : Migration σ) (em : EntityMapping) : Option String :=
  if (m.registry.entitySchema? em.source).isSome && (m.registry.entitySchema? em.target).isSome then
    let report := m.registry.check em
    if report.isValid then none else some (em.name ++ ": " ++ report.summary)
  else none

/-- Refuses a mapping with problems before records flow. -/
def preflight (m : Migration σ) (mapping : Mapping) (s : MigrationState σ) : Progressed σ :=
  match mapping.entities.filterMap m.preflightProblem? with
  | [] => (s, none)
  | problems =>
    let message := "Mapping validation failed: " ++ "; ".intercalate problems
    (s, some (.error (.config (.setting message))))

/-- Enters a phase and works in it. -/
def phase (m : Migration σ) (status : RunStatus) (work : MigrationState σ → Progressed σ)
    (s : MigrationState σ) : Progressed σ :=
  (s.goTo m status).andThen work

/-- The phases before anything is sent. -/
def prepare (m : Migration σ) (mapping : Mapping) (s : MigrationState σ) : Progressed σ :=
  ((m.phase .extracting m.runExtraction s).andThen
    (m.phase .transforming (m.runTransformation mapping))).andThen
    (m.phase .validating m.runValidation)

/-- All phases with a mapping. -/
def phases (m : Migration σ) (mapping : Mapping) (s : MigrationState σ) : Progressed σ :=
  ((m.prepare mapping s).andThen (m.phase .loading (m.runLoading mapping))).andThen fun s =>
    s.goTo m .completed

/-- Takes a mapping to run with. -/
def adopt (mapping : Mapping) (s : MigrationState σ) : MigrationState σ :=
  { s with
    mapping := some mapping
    run := { s.run with mappingName := some mapping.name } }

/-- Checks what is given and passes through all phases. -/
def execute (m : Migration σ) (s : MigrationState σ) : Progressed σ :=
  match m.config.check with
  | .error e => (s, some (.error (.config e)))
  | .ok _ =>
    match m.resolveMapping s with
    | .error e => (s, some (.error e))
    | .ok mapping => (m.preflight mapping (adopt mapping s)).andThen (m.phases mapping)

/-- The phase that a run is in, also while it is paused. -/
def currentPhase (r : Run) : RunStatus :=
  if r.status = .paused then r.pausedFrom.getD .paused else r.status

/-- Brings a run that was stopped to its end. -/
def stop (m : Migration σ) (s : MigrationState σ) (e : MigrationError) : MigrationState σ :=
  if e.isCancel then (s.goTo m .cancelled).1
  else
    let phase := currentPhase s.run
    let s := { s with run := s.run.noteError phase e.message m.now }
    ((s.emit (.error phase e.message)).goTo m .failed).1

/-- Writes the report of the run. -/
def saveReport (m : Migration σ) (s : MigrationState σ) : MigrationState σ :=
  match s.writeArtifact m "logs" ("migration_report_" ++ m.now.stamp) s.run.toValue with
  | (s, path, none) => { s with reportPath := some path }
  | (s, _, some _) => s

/-- The state in which a new run begins. -/
def fresh (m : Migration σ) (s : MigrationState σ) : MigrationState σ :=
  { s with
    run := {
      id := natText s.ids
      name := m.config.name
      description := m.config.description
      dryRun := m.config.dryRun
      createdAt := m.now
      metadata := [("target_service", .str m.config.targetService)] }
    ids := s.ids + 1
    control := { s.control with seen := [] }
    working := []
    loadedEntities := []
    failures := 0 }

/-- Takes the totals of a run that has ended, writes its report and tells that it is over. -/
def conclude (m : Migration σ) (s : MigrationState σ) : MigrationState σ :=
  let s := m.saveReport { s with run := s.run.withTotals }
  s.emit (.ofRun s.run)

/-- Ends the work of a run that went through or was stopped by an error. Nothing ends a
standstill. -/
def settle (m : Migration σ) : Progressed σ → MigrationState σ
  | (s, none) => m.conclude s
  | (s, some (.error e)) => m.conclude (m.stop s e)
  | (s, some (.standstill _)) => s

/-- Runs the migration. A run at a standstill leaves the state in which it stays. -/
def run (m : Migration σ) (s : MigrationState σ) : MigrationState σ :=
  m.settle (m.execute (m.fresh s))

/-- The standstill that a run comes to in place of its end, if it does. -/
def standstill? (m : Migration σ) (s : MigrationState σ) : Option Standstill :=
  Stop.standstill? (m.execute (m.fresh s)).2

/-- The state before any run. -/
def initial (m : Migration σ) (target : σ) : MigrationState σ where
  run := { id := natText 0, name := m.config.name, createdAt := m.now }
  target := { outside := target }
  ids := 1

/-- Adds records by hand, in place of those that are kept for the same service and entity. -/
def addSourceData (m : Migration σ) (service entity : String) (payloads : List Value)
    (s : MigrationState σ) : MigrationState σ :=
  let source := Source.ofType .manual service entity
  { s with extracted := Dict.insert s.extracted source.key (source.records m.now payloads) }

end DataMigration.Migration

namespace DataMigration.MigrationState

variable {σ : Type}

/-- The records that were extracted for a service and entity. -/
def extractedRecords (s : MigrationState σ) (service entity : String) : List SourceRecord :=
  (Dict.get? s.extracted (recordKey service entity)).getD []

/-- The records of a target entity that are still worked on. -/
def workingRecords (s : MigrationState σ) (entity : String) : List TargetRecord :=
  Migration.entityRecords s.working entity

end DataMigration.MigrationState
