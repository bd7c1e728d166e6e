import DataMigration.Json.Write
import DataMigration.Text.Cut

/-!
# The contract of mapping documents

What a document has to look like before it is read as a mapping. A document that breaks the
contract is described by all its violations, each with its place.
-/

namespace DataMigration

/-- What a part of a document may be. -/
inductive Contract where
  | text
  /-- A text with at least one character. -/
  | filled
  /-- A text with something on both sides of its first dot. -/
  | reference
  /-- A text or null. -/
  | optionalText
  | flag
  | list (element : Contract)
  | object
  | objects (entry : Contract)
  | record (required : List String) (fields : List (String × Contract))

/-- In what way a part breaks its contract. -/
inductive Breach where
  | missing (field : String)
  | wrongKind (value : Value) (expected : String)
  | wrongKinds (value : Value) (expected : List String)
  | tooShort (value : Value)
  | noReference (value : Value)

namespace Breach

/-- The pattern of a reference to an entity. -/
def referencePattern : String := "^[^.]+\\..+$"

/-- The wording of a breach. -/
def message : Breach → String
  | .missing field => Json.compact (.str field) ++ " is a required property"
  | .wrongKind v expected => Json.compact v ++ " is not of type \"" ++ expected ++ "\""
  | .wrongKinds v expected =>
    Json.compact v ++ " is not of types " ++
      ", ".intercalate (expected.map fun e => "\"" ++ e ++ "\"")
  | .tooShort v => Json.compact v ++ " is shorter than 1 character"
  | .noReference v => Json.compact v ++ " does not match \"" ++ referencePattern ++ "\""

end Breach

/-- A breach and the keys and indexes that lead to its place. -/
structure Violation where
  place : List String
  breach : Breach

namespace Violation

/-- A key inside a pointer. -/
def escapeKey (key : String) : String :=
  String.ofList (key.toList.flatMap fun c =>
    if c = '~' then ['~', '0'] else if c = '/' then ['~', '1'] else [c])

/-- The wording of a violation: the pointer to its place and the breach. -/
def message (v : Violation) : String :=
  String.join (v.place.map fun key => "/" ++ escapeKey key) ++ ": " ++ v.breach.message

/-- The same violation below a key. -/
def below (key : String) (v : Violation) : Violation := { v with place := key :: v.place }

/-- A violation at this very place. -/
def here (breach : Breach) : Violation := ⟨[], breach⟩

end Violation

namespace Contract

/-- A text with something on both sides of its first dot, without line breaks on the right. -/
def isReference (s : String) : Bool :=
  match Text.cut? "." s with
  | some (service, entity) => service != "" && entity != "" && !entity.toList.contains '\n'
  | none => false

/-- The violations of the elements of a list, the first of which has number `i`. -/
def ofElements (check : Value → List Violation) : Nat → List Value → List Violation
  | _, [] => []
  | i, v :: vs =>
    (check v).map (Violation.below (String.ofList (Decimal.natDigits i))) ++
      ofElements check (i + 1) vs

/-- The violations of the values of an object. -/
def ofEntries (check : Value → List Violation) (fields : List (String × Value)) :
    List Violation :=
  fields.flatMap fun e => (check e.2).map (Violation.below e.1)

mutual

/-- The violations of a contract by a value. -/
def violations : Contract → Value → List Violation
  | .text, v =>
    match v with
    | .str _ => []
    | _ => [.here (.wrongKind v "string")]
  | .filled, v =>
    match v with
    | .str s => if s = "" then [.here (.tooShort v)] else []
    | _ => [.here (.wrongKind v "string")]
  | .reference, v =>
    match v with
    | .str s => if isReference s then [] else [.here (.noReference v)]
    | _ => [.here (.wrongKind v "string")]
  | .optionalText, v =>
    match v with
    | .str _ => []
    | .null => []
    | _ => [.here (.wrongKinds v ["null", "string"])]
  | .flag, v =>
    match v with
    | .bool _ => []
    | _ => [.here (.wrongKind v "boolean")]
  | .list element, v =>
    match v with
    | .arr items => ofElements (violations element) 0 items
    | _ => [.here (.wrongKind v "array")]
  | .object, v =>
    match v with
    | .obj _ => []
    | _ => [.here (.wrongKind v "object")]
  | .objects entry, v =>
    match v with
    | .obj fields => ofEntries (violations entry) fields
    | _ => [.here (.wrongKind v "object")]
  | .record required fields, v =>
    match v with
    | .obj members =>
      fieldViolations fields members ++
        ((required.filter fun k => !Dict.contains members k).map fun k => .here (.missing k))
    | _ => [.here (.wrongKind v "object")]

/-- The violations of the contracts of fields by the members of an object. -/
def fieldViolations : List (String × Contract) → Dict Value → List Violation
  | [], _ => []
  | (name, c) :: fields, members =>
    (match Dict.get? members name with
      | some v => (violations c v).map (Violation.below name)
      | none => []) ++ fieldViolations fields members

end

/-- The contract of a field mapping. -/
def fieldMapping : Contract :=
  .record ["target_field"] [("condition", .optionalText), ("notes", .text), ("required", .flag),
    ("source_field", .optionalText), ("target_field", .filled), ("transform", .text),
    ("transform_config", .object)]

/-- The contract of an entity mapping. -/
def entityMapping : Contract :=
  .record ["source", "target"] [("dependencies", .list .text), ("description", .text),
    ("field_mappings", .list fieldMapping), ("notes", .text), ("source", .reference),
    ("target", .reference)]

/-- The contract of a mapping. -/
def mapping : Contract :=
  .record ["name", "mappings"] [("description", .text), ("mappings", .objects entityMapping),
    ("migration_order", .list .text), ("name", .filled), ("source_services", .list .text),
    ("status_mappings", .objects .object), ("target_service", .text),
    ("transform_functions", .object), ("version", .text)]

end Contract

end DataMigration
