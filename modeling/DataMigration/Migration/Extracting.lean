import DataMigration.Migration.State

/-!
# The extraction phase

Sources are read in their order. While one waits for a file, the next ones begin, as many as there
are workers. A source that cannot be read ends the run unless the configuration lets it go on.
-/

namespace DataMigration.Migration

variable {σ : Type}

/-- What a source gave. -/
abbrev Extracted := Except ExtractionError Extraction

/-- The extraction of a source waits for a file. -/
def waits (m : Migration σ) (s : MigrationState σ) (source : Source) : Bool :=
  match m.connectors.extractor source with
  | .ok x => x.waits && (x.problems s.files).isEmpty
  | .error _ => false

/-- Reads a source. -/
def read (m : Migration σ) (s : MigrationState σ) (source : Source) :
    MigrationState σ × Extracted :=
  match m.connectors.extractor source with
  | .error e => (s, .error e)
  | .ok x =>
    match x.problems s.files with
    | [] =>
      let s := s.note m (.extract source)
      (s, x.extract s.files)
    | problems => (s, .error (.invalidSource ("; ".intercalate problems)))

/-- Reads sources one after the other. -/
def readAll (m : Migration σ) : List Source → MigrationState σ →
    MigrationState σ × List Extracted
  | [], s => (s, [])
  | source :: rest, s =>
    let (s, x) := m.read s source
    let (s, xs) := readAll m rest s
    (s, x :: xs)

/-- Reads a source, and those that begin while it waits. -/
def readAhead (m : Migration σ) (s : MigrationState σ) (source : Source) (rest : List Source) :
    MigrationState σ × Extracted × List Extracted :=
  let ahead := if m.waits s source then rest.take (m.config.workers - 1) else []
  let (s, x) := m.read s source
  let (s, xs) := m.readAll ahead s
  (s, x, xs)

/-- The counters and problems of an extraction on its step. -/
def countExtraction (x : Extraction) (step : Step) : Step :=
  { step with
    processed := x.total + x.errors.length
    succeeded := x.total
    failed := x.errors.length
    errors := step.errors ++ x.errors
    warnings := step.warnings ++ x.warnings }

/-- Saves the records of one extraction, and remarks on the step if that fails. -/
def saveExtracted (m : Migration σ) (source : Source) (x : Extraction) (s : MigrationState σ)
    (step : Step) : MigrationState σ × Step :=
  if m.config.saveExtracted then
    let records := Value.arr (x.records.map SourceRecord.toValue)
    match s.writeArtifact m "extracted" source.key records with
    | (s, _, none) => (s, step)
    | (s, _, some e) => (s, { step with warnings := step.warnings ++ [e.message] })
  else (s, step)

/-- Takes over what a source gave. -/
def absorb (m : Migration σ) (source : Source) (x : Extraction) (s : MigrationState σ)
    (step : Step) : MigrationState σ × Step :=
  let (s, step) := m.saveExtracted source x s (countExtraction x step)
  let s := s.emit (.ofProgress .extracting step x.total
    ("Extracted " ++ source.entity ++ " from " ++ source.service))
  ({ s with extracted := Dict.upsert s.extracted source.key [] (· ++ x.records) }, step)

/-- The step of one source. -/
def extractStep (m : Migration σ) (source : Source) (x : Extracted) (s : MigrationState σ) :
    Progressed σ :=
  let (s, step) := s.newStep m ("Extract " ++ source.entity ++ " from " ++ source.service)
    source.entity .extracting
  match x with
  | .ok x =>
    let (s, step) := m.absorb source x s step
    (s.finishStep m step none).checkpoint m
  | .error e =>
    let s := s.finishStep m step (some (.extraction e))
    if m.config.continueOnError then s.checkpoint m else (s, some (.error (.extraction e)))

/-- The steps of sources, the first of which may have been read already. -/
def extractAll (m : Migration σ) : List Source → List Extracted → MigrationState σ → Progressed σ
  | [], _, s => (s, none)
  | source :: rest, x :: ahead, s =>
    (m.extractStep source x s).andThen (extractAll m rest ahead)
  | source :: rest, [], s =>
    let (s, x, ahead) := m.readAhead s source rest
    (m.extractStep source x s).andThen (extractAll m rest ahead)

/-- The extraction phase. -/
def runExtraction (m : Migration σ) (s : MigrationState σ) : Progressed σ :=
  m.extractAll m.config.sources [] s

end DataMigration.Migration
