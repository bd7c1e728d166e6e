import DataMigration.Calendar.Read
import DataMigration.Decimal.Layout
import DataMigration.Record.Target
import DataMigration.Schema.Entity
import DataMigration.Validation.Rule

/-!
# Validating records

A record is held against the schema of its entity: every declared field in order, and then the
fields that no declaration knows. Fields whose names begin with `meta_data` are free.
-/

namespace DataMigration

/-- A value has a declared type. -/
def FieldType.admits (t : FieldType) (v : Value) : Bool :=
  match t, v with
  | .string, .str _ => true
  | .enum, .str _ => true
  | .integer, .num n => !n.isFloat
  | .decimal, .num _ => true
  | .currency, .num _ => true
  | .timestamp, .num _ => true
  | .boolean, .bool _ => true
  | .date, .str s => Calendar.isDate s
  | .dateTime, .str s => Calendar.isDateTime s
  | .object, .obj _ => true
  | .array, .arr _ => true
  | .json, .obj _ => true
  | .json, .arr _ => true
  | .json, .str _ => true
  | _, _ => false

namespace Validation

/-- A number as it reads in a message. -/
def digits (n : Nat) : String := String.ofList (Decimal.natDigits n)

/-- The finding about a required field without a value. -/
def missing (path : String) : Finding where
  field := path
  message := "Required field is missing"
  kind := .required
  suggestedFix := some "Add a field mapping or a default value"

/-- The findings about the type of a value. -/
def typeFindings (path : String) (info : FieldInfo) (v : Value) : List Finding :=
  if info.type.admits v then []
  else [{
    field := path
    message := "Invalid type. Expected " ++ info.type.name ++ ", got " ++ v.kind
    kind := .type
    value := some v }]

/-- The findings about the length of a text. -/
def lengthFindings (path : String) (info : FieldInfo) (v : Value) : List Finding :=
  match info.maxLength, v with
  | some max, .str s =>
    if max < s.length then [{
      field := path
      message := "Value exceeds max length of " ++ digits max
      kind := .maxLength
      value := some (.nat s.length)
      suggestedFix := some ("Truncate to " ++ digits max ++ " characters") }]
    else []
  | _, _ => []

/-- The findings about a value that is not one of those allowed. -/
def allowedFindings (path : String) (info : FieldInfo) (v : Value) : List Finding :=
  let allowed := info.allowed.getD []
  if allowed.isEmpty || allowed.contains v.text then []
  else [{
    field := path
    message := "Invalid enum value. Must be one of: " ++ ", ".intercalate allowed
    kind := .enum
    value := some v
    suggestedFix := some ("Use one of: " ++ ", ".intercalate allowed) }]

/-- The findings of the rules of a field. -/
def ruleFindings (rules : FieldRules) (path : String) (v : Value) : List Finding :=
  (rules.forField path).filterMap fun rule => (rule.check v).map fun message =>
    { field := path, message, kind := .validation, value := some v }

mutual

/-- The findings about the value of a field, if it has one. -/
def fieldFindings (rules : FieldRules) :
    FieldSchema → String → Option Value → List Finding
  | .mk info _ _, path, none => if info.required then [missing path] else []
  | .mk info properties items, path, some v =>
    typeFindings path info v ++ lengthFindings path info v ++ allowedFindings path info v ++
      propertiesFindings rules properties path v ++ itemsFindings rules items path v ++
      ruleFindings rules path v

/-- The findings about the properties of an object. -/
def propertiesFindings (rules : FieldRules) :
    Option (List (String × FieldSchema)) → String → Value → List Finding
  | some properties, path, .obj members => membersFindings rules properties path members
  | _, _, _ => []

/-- The findings about declared members, one by one. -/
def membersFindings (rules : FieldRules) :
    List (String × FieldSchema) → String → Dict Value → List Finding
  | [], _, _ => []
  | (name, s) :: properties, path, members =>
    fieldFindings rules s (path ++ "." ++ name) (Value.present (Dict.get? members name)) ++
      membersFindings rules properties path members

/-- The findings about the elements of an array. -/
def itemsFindings (rules : FieldRules) : Option FieldSchema → String → Value → List Finding
  | some s, path, .arr elements =>
    elements.zipIdx.flatMap fun e =>
      fieldFindings rules s (path ++ "[" ++ digits e.2 ++ "]") (Value.present (some e.1))
  | _, _, _ => []

end

/-- The finding about a field that the schema does not declare. -/
def unknownField (strict : Bool) (key : String) : Finding where
  field := key
  message := "Unknown field in target schema: " ++ key
  kind := .unknownField
  severity := if strict then .error else .warning
  suggestedFix := some ("Move it under meta_data." ++ key)

/-- A field that may be there without a declaration. -/
def isFree (key : String) : Bool := Text.startsWith "meta_data" key

/-- The fields of a record that its schema does not declare. -/
def unknownFields (r : TargetRecord) (s : EntitySchema) : List String :=
  (Dict.keys r.data).filter fun key => !isFree key && !Dict.contains s.fields key

/-- The findings about a record. An undeclared field is an error when `strict` is set. -/
def findings (rules : FieldRules) (s : EntitySchema) (strict : Bool) (r : TargetRecord) :
    List Finding :=
  (s.fields.flatMap fun e => fieldFindings rules e.2 e.1 (r.get? e.1)) ++
    (unknownFields r s).map (unknownField strict)

/-- The findings about records that have any, by their ids. -/
def batchFindings (rules : FieldRules) (s : EntitySchema) (strict : Bool)
    (rs : List TargetRecord) : Dict (List Finding) :=
  Dict.ofEntries ((rs.map fun r => (r.id, findings rules s strict r)).filter fun e => !e.2.isEmpty)

/-- A rule of the same name that rejects every value and names itself. -/
def marker (rule : FieldRule) : FieldRule := { rule with check := fun _ => some rule.name }

/-- The names of the rules that are applied to a record, in order. -/
def calls (rules : FieldRules) (s : EntitySchema) (r : TargetRecord) : List String :=
  ((findings (rules.mapValues fun rs => rs.map marker) s false r).filter fun f =>
    f.kind == .validation).map fun f => f.message

end Validation

end DataMigration
