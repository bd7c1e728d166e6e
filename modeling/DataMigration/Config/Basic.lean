import DataMigration.Config.Source
import DataMigration.Files.Basic
import DataMigration.Yaml.Read

/-!
# Configurations

What a migration is told: where records come from and go to, how they are batched, and what is
done with errors and duplicates.
-/

namespace DataMigration

/-- The settings of a migration. -/
structure Config where
  name : String
  description : String := ""
  sources : List Source := []
  targetService : String := ""
  targetApiKey : Option String := none
  targetSite : Option String := none
  mappingFile : Option String := none
  customMappings : Dict Value := []
  /-- Loads into memory instead of the target. -/
  dryRun : Bool := false
  batchSize : Nat := 100
  workers : Nat := 1
  continueOnError : Bool := true
  /-- The number of failed records that a run survives. -/
  maxErrors : Nat := 100
  /-- The fields by which duplicates are recognised, by target entity. -/
  deduplication : Dict String := []
  preferredSource : String := ""
  outputDir : String := "./data"
  saveExtracted : Bool := true
  saveTransformed : Bool := true
  strictValidation : Bool := false
  upsert : Bool := true
  /-- Requests to the target in a second. -/
  rateLimit : Option Binary64 := none
  lookupTables : Dict (List Value) := []
  deriving DecidableEq

/-- Why a configuration cannot be used. -/
inductive ConfigError where
  | setting (message : String)
  | file (path : String) (reason : FileError)
  | parse
  deriving DecidableEq, Repr

/-- The wording of a configuration error. What a text breaks of the grammar is left out. -/
def ConfigError.message : ConfigError → String
  | .setting message => "Configuration error: " ++ message
  | .file path reason => "Failed to read config file " ++ path ++ ": " ++ reason.message
  | .parse => "Failed to parse config: <detail>"

namespace Config

/-- The field by which duplicates of a target entity are recognised. -/
def dedupKey (c : Config) (entity : String) : String :=
  (Dict.get? c.deduplication entity).getD "email"

/-- Refuses settings that a migration cannot work with. -/
def check (c : Config) : Except ConfigError Unit :=
  if c.batchSize = 0 then .error (.setting "batch_size must be at least 1")
  else if c.workers = 0 then .error (.setting "parallel_workers must be at least 1")
  else if c.rateLimit.any fun x => !x.isPositive then
    .error (.setting "rate_limit must be positive")
  else .ok ()

/-- The configuration as a document, without its secrets. -/
def toValue (c : Config) : Value :=
  .obj ([("name", .str c.name), ("description", .str c.description),
    ("sources", .arr (c.sources.map Source.toValue)), ("target_service", .str c.targetService)] ++
    Value.fieldIf "target_site" c.targetSite Value.str ++
    Value.fieldIf "mapping_file" c.mappingFile Value.str ++
    [("custom_mappings", .obj c.customMappings), ("dry_run", .bool c.dryRun),
      ("batch_size", .nat c.batchSize), ("parallel_workers", .nat c.workers),
      ("continue_on_error", .bool c.continueOnError), ("max_errors", .nat c.maxErrors),
      ("deduplication", Value.ofDict Value.str c.deduplication),
      ("dedup_preferred_source", .str c.preferredSource), ("output_dir", .str c.outputDir),
      ("save_extracted", .bool c.saveExtracted), ("save_transformed", .bool c.saveTransformed),
      ("strict_validation", .bool c.strictValidation), ("upsert", .bool c.upsert)] ++
    Value.fieldIf "rate_limit" c.rateLimit (fun x => .ofFloat x.toFloat) ++
    [("lookup_tables", Value.ofDict Value.arr c.lookupTables)])

/-- The configuration that a document holds. -/
def ofTree? (t : Tree) : Option Config := do
  let r ← Record.ofTree? (fieldNames ["name", "description", "sources", "target_service",
    "target_api_key", "target_site", "mapping_file", "custom_mappings", "dry_run", "batch_size",
    "parallel_workers", "continue_on_error", "max_errors", "deduplication",
    "dedup_preferred_source", "output_dir", "save_extracted", "save_transformed",
    "strict_validation", "upsert", "rate_limit", "lookup_tables"]) t
  some {
    name := ← r.required "name" Tree.text?
    description := ← r.withDefault "description" "" Tree.text?
    sources := ← r.withDefault "sources" [] (Tree.listOf? Source.ofTree?)
    targetService := ← r.withDefault "target_service" "" Tree.text?
    targetApiKey := ← r.optional "target_api_key" Tree.text?
    targetSite := ← r.optional "target_site" Tree.text?
    mappingFile := ← r.optional "mapping_file" Tree.text?
    customMappings := ← r.withDefault "custom_mappings" [] Tree.object?
    dryRun := ← r.withDefault "dry_run" false Tree.bool?
    batchSize := ← r.withDefault "batch_size" 100 Tree.word?
    workers := ← r.withDefault "parallel_workers" 1 Tree.word?
    continueOnError := ← r.withDefault "continue_on_error" true Tree.bool?
    maxErrors := ← r.withDefault "max_errors" 100 Tree.word?
    deduplication := ← r.withDefault "deduplication" [] (Tree.dictOf? Tree.text?)
    preferredSource := ← r.withDefault "dedup_preferred_source" "" Tree.text?
    outputDir := ← r.withDefault "output_dir" "./data" Tree.text?
    saveExtracted := ← r.withDefault "save_extracted" true Tree.bool?
    saveTransformed := ← r.withDefault "save_transformed" true Tree.bool?
    strictValidation := ← r.withDefault "strict_validation" false Tree.bool?
    upsert := ← r.withDefault "upsert" true Tree.bool?
    rateLimit := ← r.optional "rate_limit" Tree.float?
    lookupTables := ← r.withDefault "lookup_tables" []
      (Tree.dictOf? (Tree.listOf? Tree.value?)) }

/-- The configuration that a text holds. -/
def ofDocument (text : String) : Except ConfigError Config :=
  match (Yaml.read? text).bind ofTree? with
  | none => .error .parse
  | some c =>
    match c.check with
    | .ok _ => .ok c
    | .error e => .error e

/-- The configuration in a file. -/
def load (fs : Files) (path : String) : Except ConfigError Config :=
  match fs.read path with
  | .ok text => ofDocument text
  | .error e => .error (.file path e)

end Config

end DataMigration
