import DataMigration.Calendar.Read
import DataMigration.Document.Record
import DataMigration.Path.Lookup

/-!
# Source records

A record as it came out of a source service, and the reference that a record made from it keeps.
-/

namespace DataMigration

/-- The instant of a time stamp in a document. -/
def Tree.instant? (t : Tree) : Option Calendar.Instant :=
  t.text?.bind fun s => Calendar.relaxedInstant? s.toList

/-- An instant as a document. -/
def Value.ofInstant (t : Calendar.Instant) : Value := .str t.text

/-- A record of a source service. -/
structure SourceRecord where
  id : String
  service : String
  entity : String
  data : Value
  /-- The payload as it was received, kept for audit. -/
  raw : Option Value := none
  extractedAt : Calendar.Instant
  sourceType : String := "api"
  metadata : Dict Value := []

namespace SourceRecord

/-- The value at a path of the payload. -/
def get? (r : SourceRecord) (path : String) : Option Value := Path.lookup r.data path

/-- The record as a document. -/
def toValue (r : SourceRecord) : Value :=
  .obj ([("id", .str r.id), ("source_service", .str r.service), ("source_entity", .str r.entity),
    ("data", r.data)] ++ (Value.fieldIf "raw_data" r.raw fun v => v) ++
    [("extracted_at", .ofInstant r.extractedAt), ("source_type", .str r.sourceType),
      ("metadata", .obj r.metadata)])

/-- The record that a document holds. -/
def ofTree? (t : Tree) : Option SourceRecord := do
  let r ← Record.ofTree? (fieldNames ["id", "source_service", "source_entity", "data", "raw_data",
    "extracted_at", "source_type", "metadata"]) t
  some {
    id := ← r.required "id" Tree.text?
    service := ← r.required "source_service" Tree.text?
    entity := ← r.required "source_entity" Tree.text?
    data := ← r.required "data" Tree.value?
    raw := ← r.optional "raw_data" Tree.value?
    extractedAt := ← r.required "extracted_at" Tree.instant?
    sourceType := ← r.withDefault "source_type" "api" Tree.text?
    metadata := ← r.withDefault "metadata" [] Tree.object? }

end SourceRecord

/-- A reference to a source record. -/
structure SourceRef where
  id : String
  service : String
  entity : String
  deriving DecidableEq, Repr

namespace SourceRef

/-- The reference to a record. -/
def ofRecord (r : SourceRecord) : SourceRef := ⟨r.id, r.service, r.entity⟩

/-- The reference as a document. -/
def toValue (r : SourceRef) : Value :=
  .obj [("id", .str r.id), ("service", .str r.service), ("entity", .str r.entity)]

/-- The reference that a document holds. -/
def ofTree? (t : Tree) : Option SourceRef := do
  let r ← Record.ofTree? (fieldNames ["id", "service", "entity"]) t
  some ⟨← r.required "id" Tree.text?, ← r.required "service" Tree.text?,
    ← r.required "entity" Tree.text?⟩

end SourceRef

end DataMigration
