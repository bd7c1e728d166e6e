import DataMigration.Document.Tree

/-!
# Records of a document

A record type is read from a mapping by the names of its fields. A value may also give them in a
list by their order. Unknown names are ignored, a field that is given twice does not fit.
-/

namespace DataMigration

/-- A field of a record type: its name and another name that is accepted for it. -/
structure FieldName where
  name : String
  alternative : Option String := none

namespace FieldName

/-- The key is one of the names of the field. -/
def accepts (f : FieldName) (key : String) : Bool := f.name == key || f.alternative == some key

end FieldName

/-- The parts of a record by the names of their fields. -/
abbrev Record := List (String × Tree)

namespace Record

/-- The entries that belong to fields, under the names of the fields. -/
def known (shape : List FieldName) (entries : List (String × Tree)) : Record :=
  entries.filterMap fun e => (shape.find? fun f => f.accepts e.1).map fun f => (f.name, e.2)

/-- No field is given twice. -/
def distinct : Record → Bool
  | [] => true
  | (k, _) :: r => !(r.any fun e => e.1 == k) && distinct r

/-- The record that a document holds. -/
def ofTree? (shape : List FieldName) : Tree → Option Record
  | .value (.arr items) =>
    if items.length ≤ shape.length then
      some ((shape.map FieldName.name).zip (items.map Tree.value))
    else none
  | t => do
    let r := known shape (← t.entries?)
    if r.distinct then some r else none

/-- The part of a field, if it is given. -/
def part? : Record → String → Option Tree
  | [], _ => none
  | (k, t) :: r, name => if k = name then some t else part? r name

variable {α : Type}

/-- A field that has to be given. -/
def required (r : Record) (name : String) (read : Tree → Option α) : Option α :=
  (r.part? name).bind read

/-- A field that has the value `default` when it is not given. -/
def withDefault (r : Record) (name : String) (default : α) (read : Tree → Option α) : Option α :=
  match r.part? name with
  | none => some default
  | some t => read t

/-- A field that may be missing or null. -/
def optional (r : Record) (name : String) (read : Tree → Option α) : Option (Option α) :=
  r.withDefault name none (Tree.optional? read)

end Record

/-- Shorthand for fields with one name each. -/
def fieldNames (names : List String) : List FieldName := names.map fun n => ⟨n, none⟩

namespace Value

/-- A field that is written only when it has a value. -/
def fieldIf {α : Type} (name : String) (v : Option α) (write : α → Value) : List (String × Value) :=
  match v with
  | none => []
  | some a => [(name, write a)]

/-- A field that is written only when its text is not empty. -/
def textField (name text : String) : List (String × Value) :=
  if text = "" then [] else [(name, .str text)]

/-- A value that may be missing, as the value or null. -/
def orNull {α : Type} (v : Option α) (write : α → Value) : Value := (v.map write).getD .null

/-- A list of texts. -/
def texts (xs : List String) : Value := .arr (xs.map Value.str)

/-- A dictionary of written values. -/
def ofDict {α : Type} (write : α → Value) (d : Dict α) : Value := .obj (d.mapValues write)

end Value

end DataMigration
