import DataMigration.Load.Loader

/-!
# Loading into memory

A target that is a dictionary: the data of records by entity and id. Dry runs load into it.
-/

namespace DataMigration

/-- The data of loaded records by entity and id. -/
abbrev Memory := Dict (Dict (Dict Value))

namespace Memory

/-- The records of an entity by their ids. -/
def entity (m : Memory) (name : String) : Dict (Dict Value) := (Dict.get? m name).getD []

/-- Puts a record in its place, or refuses one that is there if it must not be replaced. -/
def load (r : TargetRecord) (upsert : Bool) (m : Memory) :
    Except LoaderError LoadOutcome × Memory :=
  if !upsert && Dict.contains (m.entity r.entity) r.id then
    (.ok (.refused r "Record already exists" (some "duplicate")), m)
  else
    (.ok (.loaded r r.id), Dict.insert m r.entity (Dict.insert (m.entity r.entity) r.id r.data))

/-- Takes a record away, and says whether it was there. -/
def delete (entity id : String) (m : Memory) : Except LoaderError Bool × Memory :=
  if Dict.contains (m.entity entity) id then
    (.ok true, Dict.insert m entity (Dict.erase (m.entity entity) id))
  else (.ok false, m)

/-- The loader that writes into memory. -/
def loader (service : String) : Loader Memory where
  service
  load := load
  delete := delete

end Memory

end DataMigration
