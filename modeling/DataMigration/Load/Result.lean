import DataMigration.Record.Target
import DataMigration.Run.Step

/-!
# Results of loading

The outcome for one record, and the sum of the outcomes of a batch.
-/

namespace DataMigration

/-- What became of one record. -/
structure LoadOutcome where
  recordId : String
  entity : String
  success : Bool
  targetId : Option String := none
  error : Option String := none
  errorCode : Option String := none
  deriving DecidableEq, Repr

namespace LoadOutcome

/-- The record was loaded. -/
def loaded (r : TargetRecord) (targetId : String) : LoadOutcome :=
  { recordId := r.id, entity := r.entity, success := true, targetId := some targetId }

/-- The record was not loaded. -/
def refused (r : TargetRecord) (error : String) (code : Option String) : LoadOutcome :=
  { recordId := r.id, entity := r.entity, success := false, error := some error,
    errorCode := code }

/-- The outcome as a document. -/
def toValue (o : LoadOutcome) : Value :=
  .obj ([("record_id", .str o.recordId), ("entity", .str o.entity), ("success", .bool o.success)] ++
    Value.fieldIf "target_id" o.targetId Value.str ++ Value.fieldIf "error" o.error Value.str ++
    Value.fieldIf "error_code" o.errorCode Value.str)

/-- The outcome that a document holds. -/
def ofTree? (t : Tree) : Option LoadOutcome := do
  let r ← Record.ofTree?
    (fieldNames ["record_id", "entity", "success", "target_id", "error", "error_code"]) t
  some {
    recordId := ← r.required "record_id" Tree.text?
    entity := ← r.required "entity" Tree.text?
    success := ← r.required "success" Tree.bool?
    targetId := ← r.optional "target_id" Tree.text?
    error := ← r.optional "error" Tree.text?
    errorCode := ← r.optional "error_code" Tree.text? }

end LoadOutcome

/-- The outcomes of loading records of one entity. -/
structure LoadResult where
  entity : String
  attempted : Nat := 0
  succeeded : Nat := 0
  failed : Nat := 0
  skipped : Nat := 0
  outcomes : List LoadOutcome := []
  errors : List StepError := []
  /-- The ids created in the target. -/
  created : List String := []
  deriving DecidableEq

namespace LoadResult

/-- Adds the outcome of one record. -/
def add (r : LoadResult) (o : LoadOutcome) : LoadResult :=
  if o.success then
    { r with
      attempted := r.attempted + 1
      succeeded := r.succeeded + 1
      created := r.created ++ o.targetId.toList
      outcomes := r.outcomes ++ [o] }
  else
    { r with
      attempted := r.attempted + 1
      failed := r.failed + 1
      errors := r.errors ++ [.ofRecord o.recordId (o.error.getD "Unknown error") []]
      outcomes := r.outcomes ++ [o] }

/-- Adds another result to this one, whose entity stays. -/
def merge (r other : LoadResult) : LoadResult where
  entity := r.entity
  attempted := r.attempted + other.attempted
  succeeded := r.succeeded + other.succeeded
  failed := r.failed + other.failed
  skipped := r.skipped + other.skipped
  outcomes := r.outcomes ++ other.outcomes
  errors := r.errors ++ other.errors
  created := r.created ++ other.created

/-- The part of the attempts that succeeded. -/
def successRate (r : LoadResult) : Float :=
  if r.attempted = 0 then 0.0 else Float.ofNat r.succeeded / Float.ofNat r.attempted

/-- The result as a document. -/
def toValue (r : LoadResult) : Value :=
  .obj [("entity", .str r.entity), ("total_attempted", .nat r.attempted),
    ("total_succeeded", .nat r.succeeded), ("total_failed", .nat r.failed),
    ("total_skipped", .nat r.skipped), ("results", .arr (r.outcomes.map LoadOutcome.toValue)),
    ("errors", .arr (r.errors.map StepError.toValue)), ("created_ids", .texts r.created)]

end LoadResult

end DataMigration
