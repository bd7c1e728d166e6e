import DataMigration.Value.Basic

/-!
# Field types

The types a field of a service may be declared with. A name that is none of them means a text.
-/

namespace DataMigration

/-- The declared type of a field. -/
inductive FieldType where
  | string
  | integer
  | decimal
  | boolean
  | timestamp
  | date
  | dateTime
  | enum
  | object
  | array
  | json
  | currency
  deriving DecidableEq, Repr

namespace FieldType

/-- The name in documents. -/
def name : FieldType → String
  | .string => "string"
  | .integer => "integer"
  | .decimal => "decimal"
  | .boolean => "boolean"
  | .timestamp => "timestamp"
  | .date => "date"
  | .dateTime => "datetime"
  | .enum => "enum"
  | .object => "object"
  | .array => "array"
  | .json => "json"
  | .currency => "currency"

/-- All types. -/
def all : List FieldType :=
  [.string, .integer, .decimal, .boolean, .timestamp, .date, .dateTime, .enum, .object, .array,
    .json, .currency]

/-- The type with a name, whatever the case of its ASCII letters. -/
def ofName (s : String) : FieldType :=
  let s := String.ofList (s.toList.map Char.toLower)
  (all.find? fun t => t.name == s).getD .string

theorem ofName_name (t : FieldType) : ofName t.name = t := by cases t <;> decide

end FieldType

end DataMigration
