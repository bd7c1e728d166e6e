import DataMigration.Finding
import DataMigration.Record.Source

/-!
# Target records

A record shaped for the target service, with the references to its sources and the findings about
it. It may be loaded as long as no finding is an error.
-/

namespace DataMigration

/-- How far a record has come. -/
inductive RecordStatus where
  | pending
  | extracted
  | transformed
  | validated
  | loaded
  | failed
  | skipped
  deriving DecidableEq, Repr

namespace RecordStatus

/-- The name in documents. -/
def name : RecordStatus → String
  | .pending => "pending"
  | .extracted => "extracted"
  | .transformed => "transformed"
  | .validated => "validated"
  | .loaded => "loaded"
  | .failed => "failed"
  | .skipped => "skipped"

/-- All statuses. -/
def all : List RecordStatus :=
  [.pending, .extracted, .transformed, .validated, .loaded, .failed, .skipped]

/-- The status with a name. -/
def ofName? (s : String) : Option RecordStatus := all.find? fun x => x.name == s

end RecordStatus

/-- A record for the target service. -/
structure TargetRecord where
  id : String
  service : String
  entity : String
  data : Dict Value := []
  sources : List SourceRef := []
  transformedAt : Calendar.Instant
  status : RecordStatus := .pending
  findings : List Finding := []
  warnings : List String := []
  metadata : Dict Value := []
  deriving DecidableEq

namespace TargetRecord

/-- No finding is an error. -/
def isValid (r : TargetRecord) : Bool := !r.findings.any Finding.isError

/-- The ids of the source records. -/
def sourceIds (r : TargetRecord) : List String := r.sources.map SourceRef.id

/-- The service of the first source record. -/
def primaryService? (r : TargetRecord) : Option String := r.sources.head?.map SourceRef.service

/-- The value at a path of the data. The first segment is a plain key of the data. -/
def get? (r : TargetRecord) (path : String) : Option Value :=
  match Text.cut? "." path with
  | none => Value.present (Dict.get? r.data path)
  | some (root, rest) => (Dict.get? r.data root).bind fun v => Path.lookup v rest

/-- The record as a document. -/
def toValue (r : TargetRecord) : Value :=
  .obj [("id", .str r.id), ("target_service", .str r.service), ("target_entity", .str r.entity),
    ("data", .obj r.data), ("source_records", .arr (r.sources.map SourceRef.toValue)),
    ("transformed_at", .ofInstant r.transformedAt), ("status", .str r.status.name),
    ("validation_errors", .arr (r.findings.map Finding.toValue)),
    ("warnings", .texts r.warnings), ("metadata", .obj r.metadata)]

/-- The record that a document holds. -/
def ofTree? (t : Tree) : Option TargetRecord := do
  let r ← Record.ofTree? (fieldNames ["id", "target_service", "target_entity", "data",
    "source_records", "transformed_at", "status", "validation_errors", "warnings", "metadata"]) t
  some {
    id := ← r.required "id" Tree.text?
    service := ← r.required "target_service" Tree.text?
    entity := ← r.required "target_entity" Tree.text?
    data := ← r.required "data" Tree.object?
    sources := ← r.required "source_records" (Tree.listOf? SourceRef.ofTree?)
    transformedAt := ← r.required "transformed_at" Tree.instant?
    status := ← r.required "status" (Tree.name? RecordStatus.ofName?)
    findings := ← r.withDefault "validation_errors" [] (Tree.listOf? Finding.ofTree?)
    warnings := ← r.withDefault "warnings" [] (Tree.listOf? Tree.text?)
    metadata := ← r.withDefault "metadata" [] Tree.object? }

end TargetRecord

end DataMigration
