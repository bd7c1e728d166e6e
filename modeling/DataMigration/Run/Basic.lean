import DataMigration.Run.Step

/-!
# Runs

The complete account of one migration: its status, its steps, the sums of their counters, and the
ids of what it created.
-/

namespace DataMigration

/-- A problem that ended a run. -/
structure RunError where
  phase : RunStatus
  message : String
  time : Calendar.Instant
  deriving DecidableEq

namespace RunError

/-- The problem as a document. -/
def toValue (e : RunError) : Value :=
  .obj [("phase", .str e.phase.name), ("message", .str e.message), ("timestamp", .ofInstant e.time)]

/-- The problem that a document holds. -/
def ofTree? (t : Tree) : Option RunError := do
  let r ← Record.ofTree? (fieldNames ["phase", "message", "timestamp"]) t
  some {
    phase := ← r.required "phase" (Tree.name? RunStatus.ofName?)
    message := ← r.required "message" Tree.text?
    time := ← r.required "timestamp" Tree.instant? }

end RunError

/-- The account of one migration. -/
structure Run where
  id : String
  name : String
  description : String := ""
  status : RunStatus := .pending
  /-- The phase that a paused run goes on with. -/
  pausedFrom : Option RunStatus := none
  mappingName : Option String := none
  dryRun : Bool := false
  createdAt : Calendar.Instant
  startedAt : Option Calendar.Instant := none
  completedAt : Option Calendar.Instant := none
  steps : List Step := []
  currentStep : Option String := none
  processed : Nat := 0
  succeeded : Nat := 0
  failed : Nat := 0
  skipped : Nat := 0
  errors : List RunError := []
  /-- The ids created in the target, by entity. -/
  created : Dict (List String) := []
  metadata : Dict Value := []
  deriving DecidableEq

namespace Run

/-- The run with another status, if it may go there. -/
def goTo? (r : Run) (next : RunStatus) (now : Calendar.Instant) : Option Run :=
  if r.status.canGo r.pausedFrom next then
    some { r with
      status := next
      pausedFrom := if next = .paused then some r.status else none
      startedAt := if r.status = .pending ∧ next = .extracting then some now else r.startedAt
      completedAt := if next.isFinal then some now else r.completedAt }
  else none

/-- Adds a step, which becomes the current one. -/
def addStep (r : Run) (s : Step) : Run :=
  { r with steps := r.steps ++ [s], currentStep := some s.id }

/-- The first step with an id. -/
def step? (r : Run) (id : String) : Option Step := r.steps.find? fun s => s.id == id

/-- The sum of a counter of all steps. -/
def total (r : Run) (counter : Step → Nat) : Nat := r.steps.foldl (fun n s => n + counter s) 0

/-- The sums of the counters of all steps. -/
def withTotals (r : Run) : Run :=
  { r with
    processed := r.total Step.processed
    succeeded := r.total Step.succeeded
    failed := r.total Step.failed
    skipped := r.total Step.skipped }

/-- Notes a problem that ends the run. -/
def noteError (r : Run) (phase : RunStatus) (message : String) (now : Calendar.Instant) : Run :=
  { r with errors := r.errors ++ [⟨phase, message, now⟩] }

/-- Notes ids that were created for an entity. -/
def noteCreated (r : Run) (entity : String) (ids : List String) : Run :=
  { r with created := Dict.upsert r.created entity [] (· ++ ids) }

/-- The seconds that the run took. -/
def seconds? (r : Run) : Option Float :=
  match r.startedAt, r.completedAt with
  | some a, some b => some (Calendar.Instant.secondsBetween a b)
  | _, _ => none

/-- The run as a document. -/
def toValue (r : Run) : Value :=
  .obj ([("id", .str r.id), ("name", .str r.name), ("description", .str r.description),
    ("status", .str r.status.name)] ++
    Value.fieldIf "paused_from" r.pausedFrom (fun s => .str s.name) ++
    Value.fieldIf "mapping_name" r.mappingName Value.str ++
    [("dry_run", .bool r.dryRun), ("created_at", .ofInstant r.createdAt),
    ("started_at", Value.orNull r.startedAt Value.ofInstant),
    ("completed_at", Value.orNull r.completedAt Value.ofInstant),
    ("steps", .arr (r.steps.map Step.toValue)),
    ("current_step", Value.orNull r.currentStep Value.str),
    ("total_records_processed", .nat r.processed), ("total_records_succeeded", .nat r.succeeded),
    ("total_records_failed", .nat r.failed), ("total_records_skipped", .nat r.skipped),
    ("errors", .arr (r.errors.map RunError.toValue)),
    ("rollback_data", Value.ofDict Value.texts r.created), ("metadata", .obj r.metadata)])

/-- The run that a document holds. -/
def ofTree? (t : Tree) : Option Run := do
  let r ← Record.ofTree? (fieldNames ["id", "name", "description", "status", "paused_from",
    "mapping_name", "dry_run", "created_at", "started_at", "completed_at", "steps",
    "current_step", "total_records_processed", "total_records_succeeded",
    "total_records_failed", "total_records_skipped", "errors", "rollback_data", "metadata"]) t
  some {
    id := ← r.required "id" Tree.text?
    name := ← r.required "name" Tree.text?
    description := ← r.required "description" Tree.text?
    status := ← r.required "status" (Tree.name? RunStatus.ofName?)
    pausedFrom := ← r.optional "paused_from" (Tree.name? RunStatus.ofName?)
    mappingName := ← r.optional "mapping_name" Tree.text?
    dryRun := ← r.required "dry_run" Tree.bool?
    createdAt := ← r.required "created_at" Tree.instant?
    startedAt := ← r.optional "started_at" Tree.instant?
    completedAt := ← r.optional "completed_at" Tree.instant?
    steps := ← r.required "steps" (Tree.listOf? Step.ofTree?)
    currentStep := ← r.optional "current_step" Tree.text?
    processed := ← r.required "total_records_processed" Tree.word?
    succeeded := ← r.required "total_records_succeeded" Tree.word?
    failed := ← r.required "total_records_failed" Tree.word?
    skipped := ← r.required "total_records_skipped" Tree.word?
    errors := ← r.required "errors" (Tree.listOf? RunError.ofTree?)
    created := ← r.required "rollback_data" (Tree.dictOf? (Tree.listOf? Tree.text?))
    metadata := ← r.withDefault "metadata" [] Tree.object? }

end Run

end DataMigration
