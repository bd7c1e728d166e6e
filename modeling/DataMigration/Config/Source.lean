import DataMigration.Document.Record
import DataMigration.Json.Write

/-!
# Sources

Where and how one entity is extracted from one service.
-/

namespace DataMigration

/-- The kinds of sources. -/
inductive SourceType where
  | api
  | csv
  | json
  | yaml
  | screenshot
  | webScrape
  | database
  | webhook
  | manual
  deriving DecidableEq, Repr

namespace SourceType

/-- The name in documents. -/
def name : SourceType → String
  | .api => "api"
  | .csv => "csv"
  | .json => "json"
  | .yaml => "yaml"
  | .screenshot => "screenshot"
  | .webScrape => "web_scrape"
  | .database => "database"
  | .webhook => "webhook"
  | .manual => "manual"

/-- All kinds. -/
def all : List SourceType :=
  [.api, .csv, .json, .yaml, .screenshot, .webScrape, .database, .webhook, .manual]

/-- The kind with a name. -/
def ofName? (s : String) : Option SourceType := all.find? fun x => x.name == s

end SourceType

/-- The records of a service and entity are kept under one key. -/
def recordKey (service entity : String) : String := service ++ "_" ++ entity

/-- Where one entity is extracted from. -/
structure Source where
  type : SourceType := .api
  name : String := ""
  service : String
  entity : String
  apiKey : Option String := none
  endpoint : Option String := none
  filePath : Option String := none
  url : Option String := none
  batchSize : Nat := 100
  /-- Requests in a second. -/
  rateLimit : Option Binary64 := none
  /-- The values that records have to have at paths. -/
  filters : Dict Value := []
  deriving DecidableEq

namespace Source

/-- A source of a kind. -/
def ofType (type : SourceType) (service entity : String) : Source :=
  { type, name := recordKey service entity, service, entity }

/-- The key under which the records of the source are kept. -/
def key (s : Source) : String := recordKey s.service s.entity

/-- The source as a document, without its secret. -/
def toValue (s : Source) : Value :=
  .obj ([("type", .str s.type.name), ("name", .str s.name), ("service", .str s.service),
    ("entity", .str s.entity)] ++ Value.fieldIf "api_endpoint" s.endpoint Value.str ++
    Value.fieldIf "file_path" s.filePath Value.str ++ Value.fieldIf "url" s.url Value.str ++
    [("batch_size", .nat s.batchSize)] ++
    Value.fieldIf "rate_limit" s.rateLimit (fun x => .ofFloat x.toFloat) ++
    if s.filters.isEmpty then [] else [("filters", .obj s.filters)])

/-- The source that a document holds. -/
def ofTree? (t : Tree) : Option Source := do
  let r ← Record.ofTree? (fieldNames ["type", "name", "service", "entity", "api_key",
    "api_endpoint", "file_path", "url", "batch_size", "rate_limit", "filters"]) t
  some {
    type := ← r.withDefault "type" .api (Tree.name? SourceType.ofName?)
    name := ← r.withDefault "name" "" Tree.text?
    service := ← r.required "service" Tree.text?
    entity := ← r.required "entity" Tree.text?
    apiKey := ← r.optional "api_key" Tree.text?
    endpoint := ← r.optional "api_endpoint" Tree.text?
    filePath := ← r.optional "file_path" Tree.text?
    url := ← r.optional "url" Tree.text?
    batchSize := ← r.withDefault "batch_size" 100 Tree.word?
    rateLimit := ← r.optional "rate_limit" Tree.float?
    filters := ← r.withDefault "filters" [] Tree.object? }

end Source

end DataMigration
