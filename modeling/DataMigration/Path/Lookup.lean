import DataMigration.Path.Segment
import DataMigration.Value.Basic

/-!
# Reading a value at a path

A null at the end of a path counts as absent, so `lookup` only ever gives a value that is not null.
-/

namespace DataMigration.Path

/-- The value that one segment addresses. -/
def step (v : Value) : Segment → Option Value
  | .indexed name i =>
    match v.member? name with
    | some (.arr items) => items[i]?
    | _ => none
  | .unindexable _ => none
  | .plain name =>
    match v with
    | .obj fields => Dict.get? fields name
    | .arr items => (Segment.index? name).bind fun i => items[i]?
    | _ => none

/-- The value at the end of a walk along segments. -/
def walk (v : Value) : List Segment → Option Value
  | [] => some v
  | s :: rest => (step v s).bind fun w => walk w rest

/-- The value at a path, unless it is missing or null. The empty path addresses nothing. -/
def lookup (v : Value) (path : String) : Option Value :=
  match segments path with
  | [] => none
  | s :: rest => Value.present (walk v (s :: rest))

theorem lookup_ne_null {v w : Value} {path : String} (h : lookup v path = some w) : w ≠ .null := by
  unfold lookup at h
  split at h
  · simp at h
  · exact (Value.present_eq_some_iff.1 h).2

end DataMigration.Path
