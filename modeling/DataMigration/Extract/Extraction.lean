import DataMigration.Config.Source
import DataMigration.Files.Error
import DataMigration.Run.Step

/-!
# Extractions

What a source gives, and the records that are made from its payloads. A record has the id that its
payload carries, or else its position.
-/

namespace DataMigration

/-- Why a source gives nothing. -/
inductive ExtractionError where
  | file (path : String) (reason : FileError)
  | parse (path detail : String)
  | invalidSource (message : String)
  | unsupported (type : SourceType)
  | remote (source message : String)
  deriving DecidableEq, Repr

/-- The wording of an extraction error. -/
def ExtractionError.message : ExtractionError → String
  | .file path reason => "Failed to read " ++ path ++ ": " ++ reason.message
  | .parse path detail => "Failed to parse " ++ path ++ ": " ++ detail
  | .invalidSource message => "Invalid source configuration: " ++ message
  | .unsupported type => "No extractor registered for source type '" ++ type.name ++ "'"
  | .remote source message => "Source " ++ source ++ " failed: " ++ message

/-- What a full extraction gives. -/
structure Extraction where
  records : List SourceRecord
  total : Nat
  errors : List StepError := []
  warnings : List String := []

namespace Extraction

/-- An extraction that counts all its records. -/
def ofRecords (records : List SourceRecord) : Extraction := { records, total := records.length }

/-- The source reported no problem. -/
def success (e : Extraction) : Bool := e.errors.isEmpty

end Extraction

/-- The id that a payload carries. -/
def payloadId? (payload : Value) : Option String :=
  (Value.present (payload.member? "id")).map Value.text

namespace Source

/-- A record of the source. -/
def record (s : Source) (now : Calendar.Instant) (id : String) (data : Value) : SourceRecord where
  id := id
  service := s.service
  entity := s.entity
  data := data
  raw := some data
  extractedAt := now
  sourceType := s.type.name
  metadata := match s.filePath with
    | some path => [("source_file", .str path)]
    | none => []

/-- The record of the payload at a position. -/
def recordAt (s : Source) (now : Calendar.Instant) (p : Value × Nat) : SourceRecord :=
  s.record now ((payloadId? p.1).getD (natText p.2)) p.1

/-- A payload has the values that the source asks for. -/
def admits (s : Source) (payload : Value) : Bool :=
  s.filters.all fun f => (Path.lookup payload f.1).any fun v => v.same f.2

/-- The records of payloads, in their order. -/
def records (s : Source) (now : Calendar.Instant) (payloads : List Value) : List SourceRecord :=
  payloads.zipIdx.map (s.recordAt now)

/-- The records of those payloads that the source asks for. -/
def selected (s : Source) (now : Calendar.Instant) (payloads : List Value) :
    List SourceRecord :=
  (payloads.zipIdx.filter fun p => s.admits p.1).map (s.recordAt now)

end Source

end DataMigration
