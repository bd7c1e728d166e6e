import DataMigration.Path.Segment
import DataMigration.Value.Basic

/-!
# Writing a value at a path

A write walks down the path and changes the object in place: missing objects along the path are
created, and an array is filled with nulls up to the index that is written. Where the path leads
through a value that is no object, or into one that is no array, the write stops, and what it has
changed until then stays as it is.
-/

namespace DataMigration

/-- Why a value cannot be written at a path. -/
inductive PathError where
  | emptyPath
  | notAnObject (path segment : String)
  | notAnArray (path segment : String)
  deriving DecidableEq, Repr

/-- The wording of a path error. -/
def PathError.message : PathError → String
  | .emptyPath => "Empty field path"
  | .notAnObject path segment =>
    "Cannot write '" ++ path ++ "': '" ++ segment ++ "' is not an object"
  | .notAnArray path segment =>
    "Cannot write '" ++ path ++ "': '" ++ segment ++ "' is not an array"

/-- What is there after a change in place, and the error with which the change stopped, if it
did. -/
structure Changed (ε α : Type) where
  value : α
  error : Option ε := none

namespace Changed

variable {ε ε' α β : Type}

/-- The change as one of something larger. -/
def map (f : α → β) (c : Changed ε α) : Changed ε β := { value := f c.value, error := c.error }

/-- The same change with another error. -/
def mapError (f : ε → ε') (c : Changed ε α) : Changed ε' α :=
  { value := c.value, error := c.error.map f }

@[simp] theorem map_value (f : α → β) (c : Changed ε α) : (c.map f).value = f c.value := rfl

@[simp] theorem map_error (f : α → β) (c : Changed ε α) : (c.map f).error = c.error := rfl

@[simp] theorem mapError_value (f : ε → ε') (c : Changed ε α) : (c.mapError f).value = c.value :=
  rfl

@[simp] theorem mapError_error (f : ε → ε') (c : Changed ε α) :
    (c.mapError f).error = c.error.map f := rfl

end Changed

namespace Path

/-- The list with nulls at its end so that index `i` exists. -/
def padded (items : List Value) (i : Nat) : List Value :=
  items ++ List.replicate (i + 1 - items.length) .null

/-- Changes element `i` of a list, which gets nulls up to it. -/
def atIndex (f : Value → Changed PathError Value) (i : Nat) (items : List Value) :
    Changed PathError (List Value) :=
  let items := padded items i
  (f (items[i]?.getD .null)).map (items.set i)

/-- Changes the items of an array. Null counts as an empty array. -/
def inArray (path name : String) (f : List Value → Changed PathError (List Value)) :
    Value → Changed PathError Value
  | .null => (f []).map .arr
  | .arr items => (f items).map .arr
  | v => { value := v, error := some (.notAnArray path name) }

/-- Changes the fields of an object. Null counts as an empty object. -/
def inObject (path text : String) (f : Dict Value → Changed PathError (Dict Value)) :
    Value → Changed PathError Value
  | .null => (f []).map .obj
  | .obj fields => (f fields).map .obj
  | v => { value := v, error := some (.notAnObject path text) }

/-- Changes the field of a name; a field that is missing starts as null. -/
def atField (f : Value → Changed PathError Value) (name : String) (fields : Dict Value) :
    Changed PathError (Dict Value) :=
  (f ((Dict.get? fields name).getD .null)).map (Dict.put fields name)

/-- Changes the place that a segment addresses. -/
def atPlace (path : String) (f : Value → Changed PathError Value) :
    Segment → Dict Value → Changed PathError (Dict Value)
  | .plain name => atField f name
  | .unindexable text => atField f text
  | .indexed name i => atField (inArray path name (atIndex f i)) name

/-- Writes `v` along the segments, each given with its text. -/
def writeAlong (path : String) (v : Value) :
    List String → Dict Value → Changed PathError (Dict Value)
  | [], fields => { value := fields, error := some .emptyPath }
  | [last], fields => atPlace path (fun _ => { value := v }) (Segment.ofText last) fields
  | text :: rest, fields =>
    atPlace path (inObject path text (writeAlong path v rest)) (Segment.ofText text) fields

/-- The object after `v` was written at the path. -/
def write (fields : Dict Value) (path : String) (v : Value) : Changed PathError (Dict Value) :=
  writeAlong path v (if path = "" then [] else Text.split '.' path) fields

end Path

end DataMigration
