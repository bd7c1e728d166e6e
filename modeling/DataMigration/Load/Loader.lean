import DataMigration.Load.Result

/-!
# Loaders

A loader writes records into a target whose state is a value. It loads them one by one or, if the
target takes whole batches, a batch at a time.
-/

namespace DataMigration

/-- Why a target cannot be used. -/
inductive LoaderError where
  | connection (service : String)
  | request (service message : String)
  | unsupported (service : String)
  deriving DecidableEq, Repr

/-- The wording of a loader error. -/
def LoaderError.message : LoaderError → String
  | .connection service => "Connection to " ++ service ++ " failed"
  | .request service message => "Request to " ++ service ++ " failed: " ++ message
  | .unsupported service => "No loader registered for target service '" ++ service ++ "'"

/-- A way to write records into a target with states `σ`. -/
structure Loader (σ : Type) where
  service : String
  /-- Loads one record; without the flag a record that exists is refused. -/
  load : TargetRecord → Bool → σ → Except LoaderError LoadOutcome × σ
  delete : String → String → σ → Except LoaderError Bool × σ
  connected : Bool := true
  /-- A batch is one request. -/
  isBulk : Bool := false
  /-- Loads a batch of an entity in a way of its own. -/
  batch : Option (List TargetRecord → String → Bool → σ → LoadResult × σ) := none

namespace Loader

variable {σ : Type}

/-- Loads one record and adds its outcome to a result. -/
def loadInto (l : Loader σ) (upsert : Bool) (acc : LoadResult × σ) (r : TargetRecord) :
    LoadResult × σ :=
  match l.load r upsert acc.2 with
  | (.ok o, target) => (acc.1.add o, target)
  | (.error e, target) => (acc.1.add (.refused r e.message none), target)

/-- Loads records one by one. A failure does not keep the others back. -/
def loadEach (l : Loader σ) (rs : List TargetRecord) (entity : String) (upsert : Bool)
    (target : σ) : LoadResult × σ :=
  rs.foldl (l.loadInto upsert) ({ entity }, target)

/-- Loads a batch. -/
def loadBatch (l : Loader σ) (rs : List TargetRecord) (entity : String) (upsert : Bool)
    (target : σ) : LoadResult × σ :=
  match l.batch with
  | some load => load rs entity upsert target
  | none => l.loadEach rs entity upsert target

/-- The loader behind a limit on requests: batches that are no single request are loaded record by
record, so that each one counts. -/
def throttled (l : Loader σ) : Loader σ :=
  { l with batch := if l.isBulk then some l.loadBatch else none }

end Loader

end DataMigration
