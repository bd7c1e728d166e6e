import DataMigration.Finding
import DataMigration.Record.Source
import DataMigration.Run.Status

/-!
# Steps

One entity's pass through one phase, with its counters and the problems that arose.
-/

namespace DataMigration

/-- A natural number as a text. -/
def natText (n : Nat) : String := String.ofList (Decimal.natDigits n)

/-- A problem in a step, about one record or about the step itself. -/
structure StepError where
  recordId : Option String := none
  message : String
  findings : List Finding := []
  deriving DecidableEq

namespace StepError

/-- A problem with one record. -/
def ofRecord (id message : String) (findings : List Finding) : StepError :=
  { recordId := some id, message, findings }

/-- The problem as a document. -/
def toValue (e : StepError) : Value :=
  .obj (Value.fieldIf "record_id" e.recordId Value.str ++ [("message", .str e.message)] ++
    if e.findings.isEmpty then [] else [("errors", .arr (e.findings.map Finding.toValue))])

/-- The problem that a document holds. -/
def ofTree? (t : Tree) : Option StepError := do
  let r ← Record.ofTree? (fieldNames ["record_id", "message", "errors"]) t
  some {
    recordId := ← r.optional "record_id" Tree.text?
    message := ← r.required "message" Tree.text?
    findings := ← r.withDefault "errors" [] (Tree.listOf? Finding.ofTree?) }

end StepError

/-- One entity's pass through one phase. -/
structure Step where
  id : String
  name : String
  entity : String
  status : RunStatus := .pending
  startedAt : Option Calendar.Instant := none
  completedAt : Option Calendar.Instant := none
  processed : Nat := 0
  succeeded : Nat := 0
  failed : Nat := 0
  skipped : Nat := 0
  errors : List StepError := []
  warnings : List String := []
  deriving DecidableEq

namespace Step

/-- The step begins to work in a phase. -/
def start (s : Step) (phase : RunStatus) (now : Calendar.Instant) : Step :=
  { s with status := phase, startedAt := some now }

/-- The step ends. -/
def finish (s : Step) (status : RunStatus) (now : Calendar.Instant) : Step :=
  { s with status, completedAt := some now }

/-- The seconds that the step took. -/
def seconds? (s : Step) : Option Float :=
  match s.startedAt, s.completedAt with
  | some a, some b => some (Calendar.Instant.secondsBetween a b)
  | _, _ => none

/-- The step as a document. -/
def toValue (s : Step) : Value :=
  .obj [("id", .str s.id), ("name", .str s.name), ("entity", .str s.entity),
    ("status", .str s.status.name), ("started_at", Value.orNull s.startedAt Value.ofInstant),
    ("completed_at", Value.orNull s.completedAt Value.ofInstant),
    ("records_processed", .nat s.processed), ("records_succeeded", .nat s.succeeded),
    ("records_failed", .nat s.failed), ("records_skipped", .nat s.skipped),
    ("errors", .arr (s.errors.map StepError.toValue)), ("warnings", .texts s.warnings)]

/-- The step that a document holds. -/
def ofTree? (t : Tree) : Option Step := do
  let r ← Record.ofTree? (fieldNames ["id", "name", "entity", "status", "started_at",
    "completed_at", "records_processed", "records_succeeded", "records_failed",
    "records_skipped", "errors", "warnings"]) t
  some {
    id := ← r.required "id" Tree.text?
    name := ← r.required "name" Tree.text?
    entity := ← r.required "entity" Tree.text?
    status := ← r.required "status" (Tree.name? RunStatus.ofName?)
    startedAt := ← r.optional "started_at" Tree.instant?
    completedAt := ← r.optional "completed_at" Tree.instant?
    processed := ← r.required "records_processed" Tree.word?
    succeeded := ← r.required "records_succeeded" Tree.word?
    failed := ← r.required "records_failed" Tree.word?
    skipped := ← r.required "records_skipped" Tree.word?
    errors := ← r.required "errors" (Tree.listOf? StepError.ofTree?)
    warnings := ← r.required "warnings" (Tree.listOf? Tree.text?) }

end Step

end DataMigration
