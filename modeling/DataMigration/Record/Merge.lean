import DataMigration.Json.Write
import DataMigration.Record.Target
import DataMigration.Text.Blank
import DataMigration.Text.Case

/-!
# Merging duplicates

Records with the same key are one record. The first one keeps its place; one of the preferred
source replaces it unless it comes from there itself. The survivor takes over the metadata and
source references of the others. A record without a key is no duplicate of any other.
-/

namespace DataMigration

namespace TargetRecord

/-- The field whose contents are merged. -/
def metadataField : String := "meta_data"

/-- The key by which a record is recognised. -/
def key? (r : TargetRecord) (field : String) : Option String := do
  let key := Text.toLower (Text.trim (← r.get? field).text)
  if key = "" then none else some key

/-- The first source record is of this service. -/
def isFrom (r : TargetRecord) (service : String) : Bool := r.primaryService? == some service

/-- Adds the entries of another dictionary under the keys that are new. -/
def fillIn {α : Type} (d new : Dict α) : Dict α :=
  new.foldl (fun d e => if Dict.contains d e.1 then d else Dict.insert d e.1 e.2) d

/-- The data of a survivor with the metadata of a record that gives way. -/
def mergedData (winner loser : Dict Value) : Dict Value :=
  match Dict.get? loser metadataField with
  | some (.obj new) =>
    match Dict.get? winner metadataField with
    | some (.obj own) => Dict.insert winner metadataField (.obj (fillIn own new))
    | none => Dict.insert winner metadataField (.obj new)
    | some _ => winner
  | _ => winner

/-- The references of a survivor and those that are new. -/
def mergedSources (own new : List SourceRef) : List SourceRef :=
  new.foldl (fun refs r => if refs.contains r then refs else refs ++ [r]) own

/-- A survivor with what it takes over from a record that gives way. -/
def absorb (winner loser : TargetRecord) : TargetRecord :=
  { winner with
    data := mergedData winner.data loser.data
    sources := mergedSources winner.sources loser.sources }

/-- Two records with one key become one, the first of which came earlier. -/
def mergePair (preferred : String) (earlier later : TargetRecord) : TargetRecord :=
  if preferred ≠ "" ∧ later.isFrom preferred ∧ !earlier.isFrom preferred then
    later.absorb earlier
  else earlier.absorb later

/-- Adds a record to those that are kept, each with the key it was entered under. -/
def enter (field preferred : String) (kept : List (Option String × TargetRecord))
    (r : TargetRecord) : List (Option String × TargetRecord) :=
  let key := r.key? field
  if key.isSome && kept.any fun e => e.1 == key then
    kept.map fun e => if e.1 == key then (key, mergePair preferred e.2 r) else e
  else kept ++ [(key, r)]

/-- The records without duplicates. -/
def deduplicate (field preferred : String) (rs : List TargetRecord) : List TargetRecord :=
  (rs.foldl (enter field preferred) []).map (·.2)

end TargetRecord

end DataMigration
