import DataMigration.Mapping.Entity
import DataMigration.Operator.Registry
import DataMigration.Record.Target

/-!
# Applying entity mappings

One or more source records become one target record. A field mapping that fails leaves a finding,
and the record goes on with the next one; only a call without any source record is refused.
-/

namespace DataMigration

/-- What a mapping reads besides the records: the registered operators and the tables of the
run. -/
structure Toolbox where
  operators : Operators := []
  tables : Tables := {}

namespace FieldMapping

/-- The value of the source path of a field mapping. -/
def sourceValue? (m : FieldMapping) (payloads : Payloads) : Option Value :=
  m.source.bind payloads.resolve?

/-- The value that a field mapping gives: that of its operator, or else its default. -/
def value (m : FieldMapping) (tools : Toolbox) (payloads : Payloads) : Outcome :=
  ((tools.operators.call m).outcome (m.sourceValue? payloads) m.config payloads
    tools.tables).map fun v => v.or (Value.present m.default)

/-- The data after a field mapping has written its value, and the error if it failed. -/
def writeInto (m : FieldMapping) (tools : Toolbox) (payloads : Payloads) (data : Dict Value) :
    Changed TransformError (Dict Value) :=
  match m.value tools payloads with
  | .error e => { value := data, error := some e }
  | .ok none => { value := data }
  | .ok (some v) => (Path.write data m.target v).mapError .path

/-- The finding that a failed field mapping leaves. -/
def failure (m : FieldMapping) (e : TransformError) : Finding where
  field := m.target
  message := "Transform error: " ++ e.message
  kind := .transform
  value := m.source.map Value.str

end FieldMapping

namespace EntityMapping

/-- Applies one field mapping to a record in the making. -/
def step (tools : Toolbox) (payloads : Payloads) (r : TargetRecord) (m : FieldMapping) :
    TargetRecord :=
  if m.applies payloads.values then
    let written := m.writeInto tools payloads r.data
    { r with
      data := written.value
      warnings := r.warnings ++ (tools.operators.call m).remarks
      findings := r.findings ++ written.error.toList.map m.failure }
  else r

/-- The id of the target record: what the field mapping of `id` makes of its source value, or else
one made from service and id of the first source record. -/
def targetId (m : EntityMapping) (tools : Toolbox) (first : SourceRecord) (payloads : Payloads) :
    String :=
  let found := do
    let f ← m.fields.find? fun f => f.target == "id"
    let raw ← f.sourceValue? payloads
    some (f, raw)
  match found with
  | none => first.service ++ "_" ++ first.id
  | some (f, raw) =>
    match (tools.operators.call f).outcome (some raw) f.config payloads tools.tables with
    | .ok (some v) => v.text
    | _ => raw.text

/-- The target record that source records give. -/
def apply (m : EntityMapping) (tools : Toolbox) (now : Calendar.Instant) (target : EntityRef)
    (sources : List SourceRecord) : Except TransformError TargetRecord :=
  match sources with
  | [] => .error (.noSourceRecords m.name)
  | first :: _ =>
    let payloads := Payloads.ofRecords sources
    let start : TargetRecord := {
      id := m.targetId tools first payloads
      service := target.service
      entity := target.entity
      sources := sources.map SourceRef.ofRecord
      transformedAt := now }
    let r := m.fields.foldl (step tools payloads) start
    .ok { r with status := if r.isValid then .transformed else .failed }

/-- The names of the registered operators that are called for source records, in order. -/
def calls (m : EntityMapping) (tools : Toolbox) (sources : List SourceRecord) : List String :=
  let payloads := Payloads.ofRecords sources
  let forId := (m.fields.find? fun f => f.target == "id").toList.filter fun f =>
    (f.sourceValue? payloads).isSome
  let forFields := m.fields.filter fun f => f.applies payloads.values
  (forId ++ forFields).flatMap fun f => (tools.operators.call f).registeredNames

end EntityMapping

end DataMigration
