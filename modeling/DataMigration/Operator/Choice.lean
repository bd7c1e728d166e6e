import DataMigration.Mapping.Condition
import DataMigration.Operator.Basic
import DataMigration.Text.Case

/-!
# Operators that choose a value

Tables of labels, defaults and fallbacks.
-/

namespace DataMigration.Reshape

/-- The label of a value in the configured table or in a named table of the run. -/
def enumMap (v : Option Value) (config : Dict Value) (tables : Tables) : Option Value :=
  let default := configValue? config "default"
  match v with
  | none => default
  | some v =>
    match configObject? config "mapping" with
    | some mapping => (configValue? mapping v.text).or default
    | none =>
      let label := do
        let table ← Dict.get? tables.labels (← configText? config "status_mapping")
        Dict.get? table v.text
      (label.map Value.str).or default

/-- A value that counts as true. -/
def isTruthy : Value → Bool
  | .null => false
  | .bool b => b
  | .num n => n.toFloat != 0.0
  | .str s =>
    let s := Text.toLower s
    s == "true" || s == "1" || s == "yes"
  | .arr items => !items.isEmpty
  | .obj fields => !fields.isEmpty

/-- The first of two keys of the configuration that holds a label. -/
def labelOf (config : Dict Value) (primary fallback : String) : Option Value :=
  Value.present (((Dict.get? config primary).filter isLabel).or (Dict.get? config fallback))

/-- The label for true or the one for false. -/
def booleanToEnum (v : Option Value) (config : Dict Value) : Option Value :=
  if v.any isTruthy then labelOf config "true_value" "true"
  else labelOf config "false_value" "false"

/-- The value, or else the one at the fallback path with a configured ending. -/
def coalesce (v : Option Value) (config : Dict Value) (payloads : Payloads) : Option Value :=
  match v with
  | some v => some v
  | none =>
    let suffix := configText config "fallback_suffix"
    ((configText? config "fallback_field").bind payloads.first?).map fun found =>
      if suffix = "" then found else .str (found.text ++ suffix)

/-- The value, or else the first one found at the fallback paths. -/
def coalesceFields (v : Option Value) (config : Dict Value) (payloads : Payloads) :
    Option Value :=
  match v with
  | some v => some v
  | none =>
    let paths := ((Dict.get? config "fallback_fields").bind Value.asItems?).getD []
    (paths.filterMap Value.asText?).findSome? payloads.first?

/-- What a rule of `conditional` says: nothing, or its result. -/
def ruleResult (v : Option Value) (payloads : Payloads) (rule : Dict Value) :
    Option (Option Value) :=
  let byValue :=
    match Dict.get? rule "value", v with
    | some expected, some v => v.text == expected.text
    | _, _ => false
  let byCondition :=
    match (Dict.get? rule "if").bind Value.asText? with
    | some s => Condition.textHolds s payloads.values
    | none => false
  if byValue then some (configValue? rule "result")
  else if byCondition then some (configValue? rule "then")
  else (Dict.get? rule "default").map fun d => Value.present (some d)

/-- The result of the first rule that applies, or else the value. -/
def conditional (v : Option Value) (config : Dict Value) (payloads : Payloads) : Option Value :=
  let rules := ((Dict.get? config "conditions").bind Value.asItems?).getD []
  ((rules.filterMap Value.asFields?).findSome? (ruleResult v payloads)).getD v

/-- The record of a table that a value refers to, or one of its fields. -/
def lookupValue (v : Option Value) (config : Dict Value) (tables : Tables) : Option Value := do
  let v ← v
  let table ← Dict.get? tables.lookup (← configText? config "table")
  let keyField := (configText? config "key_field").getD "id"
  let found ← table.find? fun record =>
    (record.member? keyField).any fun k => k.same v || k.text == v.text
  match configText? config "value_field" with
  | some field => Value.present (found.member? field)
  | none => some found

end DataMigration.Reshape
