import DataMigration.CommandLine.Command
import DataMigration.Migration.Preview
import DataMigration.Migration.Rollback
import DataMigration.Registry.Store
import DataMigration.Schema.Infer

/-!
# Executing commands

A command works on files at one instant. It prints what it finds and says by its exit status
whether all is well.
-/

namespace DataMigration.CommandLine

/-- What a command leaves: the files, what it prints as output and as errors, and its exit
status. -/
structure Reply where
  files : Files
  output : String := ""
  errors : String := ""
  exit : Nat
  deriving DecidableEq

namespace Reply

/-- The command came to its end. -/
def ended (files : Files) (output : String) (isWell : Bool) : Reply :=
  { files, output, exit := if isWell then 0 else 1 }

/-- The command could not do its work. -/
def failed (files : Files) (message : String) : Reply :=
  { files, errors := "\n❌ Error: " ++ message ++ "\n", exit := 1 }

/-- The command broke off without a word on its output. -/
def panicked (files : Files) : Reply := { files, exit := 101 }

/-- Goes on with what was prepared, unless that failed. -/
def after {α : Type} (files : Files) (prepared : Except String α) (next : α → Reply) : Reply :=
  match prepared with
  | .ok a => next a
  | .error message => failed files message

end Reply

/-- Words an error, with what was being done in front of it. -/
def worded {ε α : Type} (doing : String) (message : ε → String) : Except ε α → Except String α
  | .ok a => .ok a
  | .error e => .error (doing ++ message e)

/-- Several lines of text. -/
def lines (ls : List String) : String := String.join (ls.map (· ++ "\n"))

/-- Loads the mapping in a file. -/
def loadMapping (fs : Files) (path : String) : Except String Mapping :=
  worded ("loading mapping " ++ path ++ ": ") MappingError.message (Mapping.load fs path)

/-- Loads what is registered. Nothing is fetched: a URL that is named is out of reach. -/
def RegistryPlaces.load (places : RegistryPlaces) (fs : Files) : Except String Registry := do
  let r ← match places.schemas with
    | none => .ok {}
    | some dir => (worded "" RegistryError.message (Registry.loadSchemas {} fs dir)).map (·.1)
  let r ← match places.mappings with
    | none => .ok r
    | some dir => (worded "" RegistryError.message (r.loadMappings fs dir)).map (·.1)
  match places.urls with
  | [] => .ok r
  | url :: _ =>
    .error ("fetching schema from " ++ url ++ ": Failed to fetch schema from " ++ url ++
      ": no connection")

/-! ## Running a migration -/

/-- The migration to run and the mapping at hand. -/
def prepareRun (now : Calendar.Instant) (fs : Files) (config : String) (mapping : Option String)
    (places : RegistryPlaces) (dryRun : Bool) :
    Except String (Migration Unit × Option Mapping) := do
  let c ← worded ("loading config " ++ config ++ ": ") ConfigError.message (Config.load fs config)
  let registry ← places.load fs
  let mapping ← mapping.mapM (loadMapping fs)
  return ({
    config := { c with dryRun := c.dryRun || dryRun }
    registry
    connectors := .files now
    now }, mapping)

/-- The report of a run, and where it is kept. -/
def runText (format : ReportFormat) (s : MigrationState Unit) : String :=
  lines ((Report.ofRun s.run).format format ::
    s.reportPath.toList.map fun path => "  ✓ Run report: " ++ path)

/-- The end of a run that is not rolled back any more. -/
def endRun (format : ReportFormat) (s : MigrationState Unit) : Reply :=
  .ended s.files (runText format s) (s.run.status == .completed || s.run.status == .rolledBack)

/-- Runs a migration, and rolls it back if that is asked for and it was completed. Nobody asks a
command to pause, so the only standstill is a panic. -/
def runMigration (m : Migration Unit) (mapping : Option Mapping) (rollback : Bool)
    (format : ReportFormat) (fs : Files) : Reply :=
  let begun := { m.initial () with mapping, files := fs }
  let s := m.run begun
  if (m.standstill? begun).isSome then .panicked s.files
  else if rollback && s.run.status == .completed then
    match m.rollback s with
    | (s, .ok _) => endRun format s
    | (s, .error e) => .failed s.files e.message
  else endRun format s

/-! ## Checking a mapping -/

/-- The lines on one entity mapping. -/
def checkLines (r : Registry) (em : EntityMapping) : List String :=
  let report := r.check em
  (em.name ++ " (" ++ em.source.text ++ " -> " ++ em.target.text ++ "): " ++
      if report.isValid then "VALID" else "INVALID") ::
    (report.errors.map fun f => "  ❌ " ++ f.field ++ ": " ++ f.message) ++
    report.cautions.map fun c => "  ⚠ " ++ c.field ++ ": " ++ c.message

/-- Checks every entity mapping of a mapping. -/
def checkMapping (r : Registry) (m : Mapping) (fs : Files) : Reply :=
  .ended fs
    (lines (["=== Mapping Validation: " ++ m.name ++ " ===", ""] ++
      m.entities.flatMap (checkLines r) ++
      ["", "Load order: " ++ " -> ".intercalate (m.loadOrder.map (·.name))]))
    (m.entities.all fun em => (r.check em).isValid)

/-! ## Inferring a schema -/

/-- The schema that sample records suggest. -/
def schemaOfSamples (now : Calendar.Instant) (fs : Files) (samples service entity : String) :
    Except String ServiceSchema := do
  let source := { Source.ofType .json service entity with filePath := some samples }
  let extraction ← worded "" ExtractionError.message do
    (← Extractor.ofFile source now).extract fs
  return {
    name := service
    entities := [(entity, Infer.entity (extraction.records.map (·.data)) entity)] }

/-- Prints a schema, or writes it to a file. -/
def giveSchema (fs : Files) (schema : ServiceSchema) : Option String → Reply
  | none => .ended fs (lines [Yaml.write schema.toValue]) true
  | some path =>
    .after fs
      (worded "" RegistryError.message
        ((({} : Registry).addSchema schema).exportSchema fs schema.name path))
      fun fs => .ended fs (lines ["  ✓ Schema written to " ++ path]) true

/-! ## Previewing a record -/

/-- Reads a service and an entity. -/
def entityRef (s : String) : Except String EntityRef :=
  match EntityRef.ofText? s with
  | some e => .ok e
  | none => .error ("expected service.entity, got '" ++ s ++ "'")

/-- The record that a file holds. -/
def readRecord (fs : Files) (path : String) : Except String Value := do
  let text ← worded ("reading " ++ path ++ ": ") FileError.message (fs.read path)
  match (Yaml.read? text).bind Tree.value? with
  | some v => .ok v
  | none => .error "<detail>"

/-- The target record that a source record becomes. -/
def previewRecord (now : Calendar.Instant) (fs : Files)
    (record mapping source target : String) (places : RegistryPlaces) :
    Except String TargetRecord := do
  let source ← entityRef source
  let target ← entityRef target
  let payload ← readRecord fs record
  let mapping ← loadMapping fs mapping
  let registry ← places.load fs
  let m : Migration Unit := {
    config := { name := "preview-" ++ mapping.name, targetService := target.service }
    registry
    now }
  worded "" MigrationError.message (m.preview (some mapping) payload source target)

/-! ## All commands -/

/-- Does what a command says. -/
def Command.execute (now : Calendar.Instant) (fs : Files) : Command → Reply
  | .run config mapping places dryRun rollback format =>
    .after fs (prepareRun now fs config mapping places dryRun) fun (m, mapping) =>
      runMigration m mapping rollback format fs
  | .validateMapping mapping places =>
    .after fs
      (do
        let m ← loadMapping fs mapping
        return (m, ← places.load fs))
      fun (m, r) => checkMapping r m fs
  | .inferSchema samples service entity output =>
    .after fs (schemaOfSamples now fs samples service entity) fun schema =>
      giveSchema fs schema output
  | .preview record mapping source target places =>
    .after fs (previewRecord now fs record mapping source target places) fun r =>
      .ended fs (lines [Json.pretty r.toValue]) r.isValid

/-- Answers a command line that names no command. -/
def Refused.answer (r : Refused) (fs : Files) : Reply :=
  match r.reason with
  | .help => .ended fs (help r.about) true
  | .misuse problem =>
    { files := fs
      errors := lines [problem.message, "", usage r.about, "",
        "For more information, try '--help'."]
      exit := 2 }

/-- Does what a command line says. -/
def execute (now : Calendar.Instant) (fs : Files) (words : List String) : Reply :=
  match Command.ofWords words with
  | .ok command => command.execute now fs
  | .error refused => refused.answer fs

end DataMigration.CommandLine
