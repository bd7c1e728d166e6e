import DataMigration.Connectors
import DataMigration.Mapping.Apply
import DataMigration.Migration.Error
import DataMigration.Progress.Control
import DataMigration.Progress.Event
import DataMigration.Validation.Record

/-!
# The state of a migration

A migration is what is given before any record flows; its state is everything that changes. Every
function on states either goes through or stops, with an error or at a standstill, and what has been
done until then stays done.
-/

namespace DataMigration

/-- Records on their way to an entity of the target. -/
structure Batch where
  entity : String
  records : List TargetRecord
  upsert : Bool
  deriving DecidableEq

/-- What a run does where somebody may watch it. -/
inductive Activity where
  /-- Reads a source. -/
  | extract (source : Source)
  /-- Calls a registered operator. -/
  | operator (name : String)
  /-- Applies a field rule. -/
  | rule (name : String)
  /-- Sends a batch to the target. -/
  | load (batch : Batch)
  /-- Looks whether it is asked to pause or stop. -/
  | checkpoint
  deriving DecidableEq

/-- The batch that an activity sends. -/
def Activity.batch? : Activity → Option Batch
  | .load batch => some batch
  | _ => none

/-- A request that reaches a run, or a pause together with the request that ends it. -/
inductive Disturbance where
  | request (r : Request)
  | pauseThen (r : Request)
  deriving DecidableEq, Repr

/-- The control after a disturbance. -/
def Control.disturbed (c : Control) : Disturbance → Control
  | .request r => c.after r
  | .pauseThen r => c.pauseThen r

/-- Target records for one entity of one service. -/
structure WorkingSet where
  target : EntityRef
  records : List TargetRecord
  deriving DecidableEq

/-- What a migration is given. -/
structure Migration (σ : Type) where
  config : Config
  registry : Registry := {}
  connectors : Connectors σ := {}
  operators : Operators := []
  rules : FieldRules := []
  now : Calendar.Instant
  /-- What reaches the run when it has done all this, the latest activity first. -/
  schedule : List Activity → List Disturbance := fun _ => []

/-- What changes during a migration. -/
structure MigrationState (σ : Type) where
  run : Run
  mapping : Option Mapping := none
  control : Control := {}
  files : Files := {}
  target : Target σ
  /-- The loader of the last run that reached its target. -/
  loader : Option (Loader (Target σ)) := none
  events : List ProgressEvent := []
  /-- The activities so far, the latest first. -/
  activities : List Activity := []
  extracted : Dict (List SourceRecord) := []
  working : List WorkingSet := []
  loadedEntities : List String := []
  failures : Nat := 0
  reportPath : Option String := none
  /-- The number of ids that were given out. -/
  ids : Nat := 0

/-- A state and what stopped the work, if anything did. -/
abbrev Progressed (σ : Type) := MigrationState σ × Option (Stop MigrationError)

variable {σ : Type}

/-- Goes on unless the work has stopped. -/
def Progressed.andThen (p : Progressed σ) (f : MigrationState σ → Progressed σ) : Progressed σ :=
  match p with
  | (s, none) => f s
  | (s, some e) => (s, some e)

namespace MigrationState

/-- The batches that were sent so far, in order. -/
def sent (s : MigrationState σ) : List Batch := s.activities.reverse.filterMap Activity.batch?

/-- Tells an event. -/
def emit (s : MigrationState σ) (e : ProgressEvent) : MigrationState σ :=
  { s with events := s.events ++ [e] }

/-- Does something that may be watched. -/
def note (m : Migration σ) (s : MigrationState σ) (a : Activity) : MigrationState σ :=
  let activities := a :: s.activities
  { s with
    activities
    control := (m.schedule activities).foldl Control.disturbed s.control }

/-- Gives out a step that begins to work in a phase. -/
def newStep (m : Migration σ) (s : MigrationState σ) (name entity : String) (phase : RunStatus) :
    MigrationState σ × Step :=
  ({ s with ids := s.ids + 1 },
    ({ id := natText s.ids, name, entity } : Step).start phase m.now)

/-- Goes to another status. -/
def goTo (m : Migration σ) (s : MigrationState σ) (next : RunStatus) : Progressed σ :=
  match s.run.goTo? next m.now with
  | some run => ({ s with run }, none)
  | none => (s, some (.error (.transition s.run.status next)))

/-- Heeds the signal: goes on, stops, or waits as long as it is paused. -/
def heed (m : Migration σ) (s : MigrationState σ) : Progressed σ :=
  let s := { s with control := s.control.look }
  match s.control.signal with
  | .running => (s, none)
  | .cancelled => (s, some (.error .cancelled))
  | .paused =>
    (s.goTo m .paused).andThen fun paused =>
      match s.control.waited with
      | none => (paused, some (.standstill .waits))
      | some control =>
        let resumed := { paused with control := control.look }
        if control.signal = .cancelled then (resumed, some (.error .cancelled))
        else resumed.goTo m s.run.status

/-- Looks whether there is a request to pause or stop, and heeds it. -/
def checkpoint (m : Migration σ) (s : MigrationState σ) : Progressed σ :=
  (s.note m .checkpoint).heed m

/-- The status in which a step ends. -/
def endStatus : Option MigrationError → RunStatus
  | none => .completed
  | some .cancelled => .cancelled
  | some _ => .failed

/-- The problem that ends a step, as one of its problems. -/
def endErrors : Option MigrationError → List StepError
  | none => []
  | some .cancelled => []
  | some e => [{ message := e.message }]

/-- Ends a step and adds it to the run. -/
def finishStep (m : Migration σ) (s : MigrationState σ) (step : Step)
    (outcome : Option MigrationError) : MigrationState σ :=
  let step := step.finish (endStatus outcome) m.now
  let step := { step with errors := step.errors ++ endErrors outcome }
  { s.emit (.ofStep step) with run := (s.run.addStep step).withTotals }

/-- Ends a step when its work has ended. At a standstill the step stays open. -/
def endStep (m : Migration σ) (s : MigrationState σ) (step : Step) :
    Option (Stop MigrationError) → MigrationState σ
  | none => s.finishStep m step none
  | some (.error e) => s.finishStep m step (some e)
  | some (.standstill _) => s

/-- Stops when more records have failed than allowed. -/
def checkBudget (m : Migration σ) (phase : RunStatus) (s : MigrationState σ) : Progressed σ :=
  if m.config.maxErrors < s.failures then
    (s, some (.error (.tooManyErrors phase s.failures m.config.maxErrors)))
  else (s, none)

/-- Makes a directory below the output directory and writes a document into it. The path of the
document is given even if it was not written. -/
def writeArtifact (m : Migration σ) (s : MigrationState σ) (directory name : String) (v : Value) :
    MigrationState σ × String × Option MigrationError :=
  let directory := FilePath.join m.config.outputDir directory
  let path := FilePath.join directory (name ++ ".json")
  match s.files.makeDirectories directory with
  | .error e => (s, path, some (.artifact path e.message))
  | .ok files =>
    match files.write path (Json.pretty v) with
    | .error e => ({ s with files }, path, some (.artifact path e.message))
    | .ok files => ({ s with files }, path, none)

end MigrationState

/-- Consecutive parts of a list of `size` elements each, the last one perhaps shorter. -/
def batchesUpTo {α : Type} (size : Nat) : Nat → List α → List (List α)
  | 0, _ => []
  | _ + 1, [] => []
  | fuel + 1, x :: xs => (x :: xs).take size :: batchesUpTo size fuel ((x :: xs).drop size)

/-- The batches of a list. -/
def batches {α : Type} (size : Nat) (xs : List α) : List (List α) :=
  batchesUpTo (max size 1) xs.length xs

/-- Works on batches in order until one of them stops the work. -/
def overBatches {α β : Type} (work : β → List α → β × Option (Stop MigrationError)) :
    List (List α) → β → β × Option (Stop MigrationError)
  | [], b => (b, none)
  | batch :: rest, b =>
    match work b batch with
    | (b, none) => overBatches work rest b
    | (b, some e) => (b, some e)

end DataMigration
