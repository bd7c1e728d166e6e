import DataMigration.Extract.Extraction
import DataMigration.Files.Basic
import DataMigration.Yaml.Read

/-!
# Extractors

An extractor reads the records of one source, all at once or page by page. What it finds may depend
on the files.
-/

namespace DataMigration

/-- A way to read the records of a source. -/
structure Extractor where
  source : Source
  /-- What is wrong with the source, if anything. -/
  problems : Files → List String
  extract : Files → Except ExtractionError Extraction
  /-- The records from an offset on, at most as many as a limit. -/
  page : Files → Nat → Nat → Except ExtractionError (List SourceRecord)
  /-- The extraction waits for a file, and others may begin in the meantime. -/
  waits : Bool := false

namespace Extractor

/-- What is wrong with the names of a source. -/
def nameProblems (s : Source) : List String :=
  (if s.service = "" then ["Source service name is required"] else []) ++
    if s.entity = "" then ["Source entity name is required"] else []

/-- The pages from an offset on, up to one that is short or fails. At most `fuel` pages are
read. -/
def pagesFrom (page : Nat → Nat → Except ExtractionError (List SourceRecord)) (size : Nat) :
    Nat → Nat → List (Except ExtractionError (List SourceRecord))
  | 0, _ => []
  | fuel + 1, offset =>
    match page offset size with
    | .error e => [.error e]
    | .ok [] => []
    | .ok rs =>
      .ok rs :: if rs.length = size then pagesFrom page size fuel (offset + rs.length) else []

/-- All records page by page. A page holds at least one record, so a source of `count` records has
no more than `count` pages. -/
def pages (e : Extractor) (fs : Files) (size count : Nat) :
    List (Except ExtractionError (List SourceRecord)) :=
  pagesFrom (e.page fs) (max size 1) (count + 1) 0

/-- The extractor of records that are at hand. -/
def ofRecords (source : Source) (records : List SourceRecord) : Extractor where
  source
  problems _ := nameProblems source
  extract _ := .ok (.ofRecords records)
  page _ offset limit := .ok ((records.drop offset).take limit)

/-- The extractor of payloads that are at hand. -/
def ofPayloads (source : Source) (now : Calendar.Instant) (payloads : List Value) : Extractor :=
  ofRecords source (source.records now payloads)

/-- The payloads in a document: a list, or the list under `data` or else under `records`. -/
def payloadsOf (path : String) : Value → Except ExtractionError (List Value)
  | .arr items => .ok items
  | .obj fields =>
    match (Dict.get? fields "data").or (Dict.get? fields "records") with
    | some (.arr items) => .ok items
    | _ => .error (.parse path "expected an array under 'data' or 'records'")
  | _ => .error (.parse path "expected an array of records")

/-- The payloads in a file. -/
def readPayloads (fs : Files) (path : String) : Except ExtractionError (List Value) :=
  match fs.read path with
  | .error e => .error (.file path e)
  | .ok text =>
    match (Yaml.read? text).bind Tree.value? with
    | some v => payloadsOf path v
    | none => .error (.parse path "<detail>")

/-- The records in a file that the source asks for. -/
def readRecords (source : Source) (now : Calendar.Instant) (path : String) (fs : Files) :
    Except ExtractionError (List SourceRecord) :=
  (readPayloads fs path).map (source.selected now)

/-- The extractor of a file. -/
def ofFile (source : Source) (now : Calendar.Instant) : Except ExtractionError Extractor :=
  match source.filePath with
  | none =>
    .error (.invalidSource (source.type.name ++ " source '" ++ source.key ++ "' has no file_path"))
  | some path =>
    .ok {
      source
      problems := fun fs =>
        nameProblems source ++
          if (fs.read path).isOk then [] else ["File not found: " ++ path]
      extract := fun fs => (readRecords source now path fs).map Extraction.ofRecords
      page := fun fs offset limit =>
        (readRecords source now path fs).map fun rs => (rs.drop offset).take limit
      waits := true }

end Extractor

end DataMigration
