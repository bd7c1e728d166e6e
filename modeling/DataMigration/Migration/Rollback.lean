import DataMigration.Migration.Run

/-!
# Rolling back

Everything a completed run created is deleted, the entities in the reverse of the order in which
they were loaded. A record that cannot be deleted does not keep the others back.
-/

namespace DataMigration.Migration

variable {σ : Type}

/-- The entities to sweep: those that were loaded, the last one first, and then any others with
created ids. -/
def sweepOrder (s : MigrationState σ) : List String :=
  let loaded := s.loadedEntities.reverse
  loaded ++ s.run.created.keys.filter fun e => !loaded.contains e

/-- Deletes one record and counts it if it was there. -/
def deleteOne (loader : Loader (Target σ)) (entity : String) (acc : Nat × Target σ) (id : String) :
    Nat × Target σ :=
  match loader.delete entity id acc.2 with
  | (.ok true, target) => (acc.1 + 1, target)
  | (_, target) => (acc.1, target)

/-- Deletes what was created for one entity. -/
def sweepEntity (loader : Loader (Target σ)) (created : Dict (List String))
    (acc : Dict Nat × Target σ) (entity : String) : Dict Nat × Target σ :=
  let (count, target) :=
    ((Dict.get? created entity).getD []).foldl (deleteOne loader entity) (0, acc.2)
  (Dict.insert acc.1 entity count, target)

/-- Rolls the run back and counts what was deleted for each entity. -/
def rollback (m : Migration σ) (s : MigrationState σ) :
    MigrationState σ × Except MigrationError (Dict Nat) :=
  match s.loader with
  | none => (s, .error (.config (.setting "No loader available for rollback")))
  | some loader =>
    match s.run.goTo? .rollingBack m.now with
    | none => (s, .error (.transition s.run.status .rollingBack))
    | some run =>
      let s := { s with run }
      let (deleted, target) :=
        (sweepOrder s).foldl (sweepEntity loader s.run.created) ([], s.target)
      let s := { s with target }
      match s.run.goTo? .rolledBack m.now with
      | none => (s, .error (.transition s.run.status .rolledBack))
      | some run =>
        let metadata := Dict.insert run.metadata "rollback" (Value.ofDict Value.nat deleted)
        (m.saveReport { s with run := { run with metadata } }, .ok deleted)

end DataMigration.Migration
