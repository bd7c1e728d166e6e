import DataMigration.Mapping.Condition
import DataMigration.Mapping.OperatorName

/-!
# Field mappings

Where the value of a target field comes from, how it is reshaped and when the mapping applies.
-/

namespace DataMigration

/-- The rule for one target field. -/
structure FieldMapping where
  /-- Absent when the value is made by the operator or the default. -/
  source : Option String := none
  target : String
  operator : Operator := .direct
  config : Dict Value := []
  notes : String := ""
  required : Bool := false
  default : Option Value := none
  condition : Option String := none
  deriving DecidableEq

namespace FieldMapping

/-- A copy from one path to another. -/
def copy (source target : String) : FieldMapping := { source := some source, target }

/-- The condition of the mapping holds, or there is none. -/
def applies (m : FieldMapping) (payloads : List Value) : Bool :=
  match m.condition with
  | none => true
  | some s => Condition.textHolds s payloads

/-- The field mapping as a document. -/
def toValue (m : FieldMapping) : Value :=
  .obj ([("source_field", Value.orNull m.source Value.str), ("target_field", .str m.target),
    ("transform", .str m.operator.name)] ++
    (if m.config.isEmpty then [] else [("transform_config", Value.obj m.config)]) ++
    Value.textField "notes" m.notes ++
    (if m.required then [("required", Value.bool true)] else []) ++
    (Value.fieldIf "default" m.default fun v => v) ++
    Value.fieldIf "condition" m.condition Value.str)

/-- The fields of a field mapping. -/
def shape : List FieldName :=
  fieldNames ["source_field", "target_field", "transform", "transform_config", "notes",
    "required"] ++ [⟨"default", some "default_value"⟩] ++ fieldNames ["condition"]

/-- The field mapping that a document holds. -/
def ofTree? (t : Tree) : Option FieldMapping := do
  let r ← Record.ofTree? shape t
  some {
    source := ← r.optional "source_field" Tree.text?
    target := ← r.required "target_field" Tree.text?
    operator := ← r.withDefault "transform" .direct fun t => t.text?.map Operator.ofName
    config := ← r.withDefault "transform_config" [] Tree.object?
    notes := ← r.withDefault "notes" "" Tree.text?
    required := ← r.withDefault "required" false Tree.bool?
    default := ← r.optional "default" Tree.value?
    condition := ← r.optional "condition" Tree.text? }

end FieldMapping

end DataMigration
