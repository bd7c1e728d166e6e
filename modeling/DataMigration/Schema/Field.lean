import DataMigration.Document.Record
import DataMigration.Schema.FieldType

/-!
# Field schemas

The contract of one field: what is declared about the field itself, the contracts of the
properties of an object and the contract of the elements of an array.
-/

namespace DataMigration

/-- What is declared about a field itself. -/
structure FieldInfo where
  name : String := ""
  type : FieldType := .string
  description : String := ""
  required : Bool := false
  /-- The greatest number of characters of a text. -/
  maxLength : Option Nat := none
  /-- The only texts allowed; an empty list allows all. -/
  allowed : Option (List String) := none
  default : Option Value := none
  sample : Option Value := none
  notes : String := ""
  deriving Inhabited

/-- The contract of a field. -/
inductive FieldSchema where
  | mk (info : FieldInfo) (properties : Option (List (String × FieldSchema)))
      (items : Option FieldSchema)
  deriving Inhabited

namespace FieldSchema

/-- What is declared about the field itself. -/
def info : FieldSchema → FieldInfo
  | mk info _ _ => info

/-- The contracts of properties. -/
def properties : FieldSchema → Option (Dict FieldSchema)
  | mk _ properties _ => properties

/-- The contract of elements. -/
def items : FieldSchema → Option FieldSchema
  | mk _ _ items => items

/-- A field of a type without further conditions. -/
def ofType (name : String) (type : FieldType) : FieldSchema := mk { name, type } none none

/-- The same field with other declarations. -/
def modifyInfo (f : FieldInfo → FieldInfo) : FieldSchema → FieldSchema
  | mk info properties items => mk (f info) properties items

/-- Adds contracts of properties to an object; other fields stay as they are. -/
def withProperties (s : FieldSchema) (properties : List FieldSchema) : FieldSchema :=
  if s.info.type = .object then
    mk s.info (some (Dict.ofEntries (properties.map fun p => (p.info.name, p)))) s.items
  else s

/-- Adds the contract of elements to an array; other fields stay as they are. -/
def withItems (s items : FieldSchema) : FieldSchema :=
  if s.info.type = .array then mk s.info s.properties (some items) else s

mutual

/-- Gives a field without a name the one of its place, and keeps contracts of properties on
objects only and contracts of elements on arrays only. Elements take the place of their array. -/
def placed (name : String) : FieldSchema → FieldSchema
  | mk info properties items =>
    mk { info with name := if info.name = "" then name else info.name }
      (if info.type = .object then placedProperties properties else none)
      (if info.type = .array then placedItems name items else none)

/-- The properties of an object in their places. -/
def placedProperties : Option (List (String × FieldSchema)) → Option (List (String × FieldSchema))
  | none => none
  | some ps => some (placedAll ps)

/-- Fields under the names of their places. -/
def placedAll : List (String × FieldSchema) → List (String × FieldSchema)
  | [] => []
  | (name, s) :: ps => (name, placed name s) :: placedAll ps

/-- The contract of elements in its place. -/
def placedItems (name : String) : Option FieldSchema → Option FieldSchema
  | none => none
  | some s => some (placed name s)

end

mutual

/-- The field as a document. -/
def toValue : FieldSchema → Value
  | mk info properties items =>
    .obj ([("name", .str info.name), ("type", .str info.type.name)] ++
      Value.textField "description" info.description ++ [("required", .bool info.required)] ++
      Value.fieldIf "max_length" info.maxLength Value.nat ++
      Value.fieldIf "enum" info.allowed Value.texts ++
      Value.fieldIf "default" info.default id ++ Value.fieldIf "example" info.sample id ++
      propertiesField properties ++ itemsField items ++ Value.textField "notes" info.notes)

/-- The contracts of properties as a field of a document. -/
def propertiesField : Option (List (String × FieldSchema)) → List (String × Value)
  | none => []
  | some ps => [("properties", .obj (toFields ps))]

/-- Named fields as fields of a document. -/
def toFields : List (String × FieldSchema) → List (String × Value)
  | [] => []
  | (name, s) :: ps => (name, toValue s) :: toFields ps

/-- The contract of elements as a field of a document. -/
def itemsField : Option FieldSchema → List (String × Value)
  | none => []
  | some s => [("items", toValue s)]

end

/-- The fields of a field schema. -/
def shape : List FieldName :=
  fieldNames ["name", "type", "description", "required", "max_length", "enum", "default",
    "example", "properties", "items", "notes"]

/-- The declarations about the field itself in a record. -/
def infoOf? (r : Record) : Option FieldInfo := do
  some {
    name := ← r.withDefault "name" "" Tree.text?
    type := ← r.withDefault "type" .string fun t => t.text?.map FieldType.ofName
    description := ← r.withDefault "description" "" Tree.text?
    required := ← r.withDefault "required" false Tree.bool?
    maxLength := ← r.optional "max_length" Tree.word?
    allowed := ← r.optional "enum" (Tree.listOf? Tree.text?)
    default := ← r.optional "default" Tree.value?
    sample := ← r.optional "example" Tree.value?
    notes := ← r.withDefault "notes" "" Tree.text? }

/-- The field of a document whose parts are nested at most `depth` times. -/
def ofTreeWithin? : Nat → Tree → Option FieldSchema
  | 0, _ => none
  | depth + 1, t => do
    let r ← Record.ofTree? shape t
    let info ← infoOf? r
    let properties ← r.optional "properties" (Tree.dictOf? (ofTreeWithin? depth))
    let items ← r.optional "items" (ofTreeWithin? depth)
    some (mk info properties items)

/-- The field that a document holds. -/
def ofTree? (t : Tree) : Option FieldSchema := ofTreeWithin? (t.depth + 1) t

end FieldSchema

end DataMigration
