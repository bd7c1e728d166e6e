import DataMigration.Run.Basic
import DataMigration.Text.Cut

/-!
# Reports

The account of a run in short, with advice on what to do next.
-/

namespace DataMigration

/-- A run in short. -/
structure Report where
  runId : String
  name : String
  status : RunStatus
  dryRun : Bool
  startedAt : Option Calendar.Instant
  completedAt : Option Calendar.Instant
  seconds : Option Float
  processed : Nat
  succeeded : Nat
  failed : Nat
  skipped : Nat
  successRate : Float
  steps : List Step
  errors : List RunError
  /-- The number of ids created, by entity. -/
  created : Dict Nat
  advice : List String

namespace Report

/-- The advice on a run that was stopped. -/
def adviceOnError (r : Run) : List String :=
  match r.errors.getLast? with
  | none => []
  | some e => ["Run stopped during " ++ e.phase.name ++ ": " ++ e.message]

/-- The advice on a step. -/
def adviceOnStep (s : Step) : List String :=
  (if s.warnings.any (Text.startsWith "No source data found") then
    ["Check the source configuration for " ++ s.entity ++ ": no records were extracted"]
  else []) ++
  (if Text.startsWith "Validate" s.name && decide (0 < s.failed) then
    ["Review the mapping for " ++ s.entity ++ ": " ++ natText s.failed ++
      " records failed validation and were not loaded"]
  else []) ++
  if Text.startsWith "Load" s.name && decide (0 < s.failed) then
    ["Retry " ++ natText s.failed ++ " failed " ++ s.entity ++
      " loads after fixing the reported errors"]
  else []

/-- The advice on a dry run that was completed. -/
def adviceOnDryRun (r : Run) : List String :=
  if r.status = .completed ∧ r.dryRun then
    ["Dry run completed; run again without dry_run to load into the target"]
  else []

/-- The advice on a run, or else that all is well. -/
def adviceOn (r : Run) : List String :=
  match adviceOnError r ++ r.steps.flatMap adviceOnStep ++ adviceOnDryRun r with
  | [] => ["Migration completed successfully"]
  | advice => advice

/-- The report of a run. -/
def ofRun (r : Run) : Report where
  runId := r.id
  name := r.name
  status := r.status
  dryRun := r.dryRun
  startedAt := r.startedAt
  completedAt := r.completedAt
  seconds := r.seconds?
  processed := r.processed
  succeeded := r.succeeded
  failed := r.failed
  skipped := r.skipped
  successRate :=
    if r.processed = 0 then 0.0 else Float.ofNat r.succeeded / Float.ofNat r.processed
  steps := r.steps
  errors := r.errors
  created := r.created.mapValues List.length
  advice := adviceOn r

/-- A step in short, as a document. -/
def stepValue (s : Step) : Value :=
  .obj [("name", .str s.name), ("entity", .str s.entity), ("status", .str s.status.name),
    ("records_processed", .nat s.processed), ("records_succeeded", .nat s.succeeded),
    ("records_failed", .nat s.failed), ("records_skipped", .nat s.skipped),
    ("error_count", .nat s.errors.length), ("warnings", .texts s.warnings),
    ("duration_seconds", Value.orNull s.seconds? Value.ofFloat)]

/-- The report as a document. -/
def toValue (r : Report) : Value :=
  .obj [("run_id", .str r.runId), ("name", .str r.name), ("status", .str r.status.name),
    ("dry_run", .bool r.dryRun), ("started_at", Value.orNull r.startedAt Value.ofInstant),
    ("completed_at", Value.orNull r.completedAt Value.ofInstant),
    ("duration_seconds", Value.orNull r.seconds Value.ofFloat),
    ("summary", .obj [("total_records_processed", .nat r.processed),
      ("total_records_succeeded", .nat r.succeeded), ("total_records_failed", .nat r.failed),
      ("total_records_skipped", .nat r.skipped), ("success_rate", .ofFloat r.successRate)]),
    ("steps", .arr (r.steps.map stepValue)), ("errors", .arr (r.errors.map RunError.toValue)),
    ("rollback_counts", Value.ofDict Value.nat r.created), ("recommendations", .texts r.advice)]

end Report

end DataMigration
