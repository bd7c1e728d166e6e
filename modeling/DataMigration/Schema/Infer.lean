import DataMigration.Decimal.Layout
import DataMigration.Schema.Entity
import DataMigration.Text.Cut

/-!
# Inferred schemas

A schema read off sample payloads. A walk through a sample observes a value at every path: the
fields of nested objects lie behind a dot, those of the first element of an array behind `[]`. All
observations at one path together give its type, and whether every sample has it.
-/

namespace DataMigration.Infer

/-- A value and the path at which it was observed. -/
abbrev Observation := String × Value

/-- The path of a field below another path. -/
def fieldPath (above key : String) : String := if above = "" then key else above ++ "." ++ key

mutual

/-- What is observed below a value at a path. -/
def observe (path : String) : Value → List Observation
  | .obj fields => observeFields path fields
  | _ => []

/-- What is observed at and below the fields of an object. -/
def observeFields (above : String) : List (String × Value) → List Observation
  | [] => []
  | (key, v) :: fields =>
    ((fieldPath above key, v) :: observeInside (fieldPath above key) v) ++
      observeFields above fields

/-- What is observed inside a field: the fields of an object, or those of a first element. -/
def observeInside (path : String) : Value → List Observation
  | .obj fields => observeFields path fields
  | .arr (v :: _) => observe (path ++ "[]") v
  | _ => []

end

/-- The type of one value. -/
def typeOf : Value → FieldType
  | .bool _ => .boolean
  | .num n => if n.isFloat then .decimal else .integer
  | .arr _ => .array
  | .obj _ => .object
  | _ => .string

/-- The type that covers all observed types. -/
def widen (types : List FieldType) : FieldType :=
  if types.contains .object then .object
  else if types.contains .array then .array
  else if types.isEmpty then .string
  else if types.all fun t => t == .integer then .integer
  else if types.all fun t => t == .integer || t == .decimal then .decimal
  else if types.all fun t => t == .boolean then .boolean
  else .string

/-- The values observed at each path, without nulls. -/
def byPath (observations : List Observation) : Dict (List Value) :=
  observations.foldl
    (fun d o => Dict.upsert d o.1 [] fun vs => if o.2.isNull then vs else vs ++ [o.2])
    []

/-- What follows the last dot of a path. -/
def lastName (path : String) : String := (Text.split '.' path).getLast?.getD path

/-- The field at a path. -/
def field (samples : Nat) (path : String) (values : List Value) : FieldSchema :=
  .mk {
    name := lastName path
    type := widen (values.map typeOf)
    required := (Text.cut? "[]" path).isNone && values.length == samples
    sample := values.head? } none none

/-- The schema of an entity that samples suggest. -/
def entity (samples : List Value) (name : String) : EntitySchema where
  name := name
  description := "Auto-inferred schema for " ++ name
  fields := (byPath (samples.flatMap (observe ""))).map fun e =>
    (e.1, field samples.length e.1 e.2)

end DataMigration.Infer
