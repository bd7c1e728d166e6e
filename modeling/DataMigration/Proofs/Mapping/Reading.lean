import DataMigration.Mapping.Apply
import DataMigration.Validation.Record

/-!
# What a target record depends on

Of the tables of a run, a built-in operator reads those of `lookup`, and `enum_map` the labels of
the table that it names. So an entity mapping makes the same of the same payloads with two sets of
tables, when its field mappings find the same in them; the names of the target do not enter the
data, and what validation finds about a record depends on its data alone.
-/

namespace DataMigration

open Reshape

/-- The label that a table has for a key. -/
def Tables.label? (t : Tables) (table key : String) : Option String :=
  (Dict.get? t.labels table).bind fun labels => Dict.get? labels key

/-- A field mapping finds the same labels in two sets of tables: all of them if its operator is a
registered one, and otherwise those of the table that its `enum_map` names. -/
structure FieldMapping.ReadsAlike (operators : Operators) (t t' : Tables) (f : FieldMapping) :
    Prop where
  registered : (operators.call f).registeredNames ≠ [] → t'.labels = t.labels
  labelled : f.operator = .enumMap → configObject? f.config "mapping" = none →
    ∀ table, configText? f.config "status_mapping" = some table →
      ∀ key, t'.label? table key = t.label? table key

theorem FieldMapping.ReadsAlike.of_labels {operators : Operators} {t t' : Tables}
    (same : t'.labels = t.labels) (f : FieldMapping) : f.ReadsAlike operators t t' where
  registered _ := same
  labelled _ _ table _ key := by
    rw [Tables.label?, Tables.label?, same]

/-! ## Operators -/

theorem Reshape.enumMap_congr {config : Dict Value} {t t' : Tables}
    (labels : configObject? config "mapping" = none →
      ∀ table, configText? config "status_mapping" = some table →
        ∀ key, t'.label? table key = t.label? table key) (v : Option Value) :
    enumMap v config t' = enumMap v config t := by
  unfold enumMap
  cases v with
  | none => rfl
  | some v =>
    cases own : configObject? config "mapping" with
    | some mapping => rfl
    | none =>
      cases named : configText? config "status_mapping" with
      | none => rfl
      | some table =>
        have found : (Dict.get? t'.labels table).bind (fun labels => Dict.get? labels v.text) =
            (Dict.get? t.labels table).bind (fun labels => Dict.get? labels v.text) :=
          labels own table named v.text
        exact congrArg (fun label : Option String => (label.map Value.str).or _) found

/-- Of the built-in operators only `lookup` and `enum_map` read tables. -/
theorem Operator.builtin?_congr {op : Operator} {g : OperatorFn} (found : op.builtin? = some g)
    {config : Dict Value} {t t' : Tables} (lookup : t'.lookup = t.lookup)
    (labels : op = .enumMap → configObject? config "mapping" = none →
      ∀ table, configText? config "status_mapping" = some table →
        ∀ key, t'.label? table key = t.label? table key) (v : Option Value) (payloads : Payloads) :
    g v config payloads t' = g v config payloads t := by
  cases op <;> cases found
  case enumMap => exact congrArg pure (enumMap_congr (labels rfl) v)
  case lookup =>
    have same : lookupValue v config t' = lookupValue v config t := by
      unfold lookupValue
      rw [lookup]
    exact congrArg pure same
  all_goals rfl

/-- A call that turns out to be that of a built-in operator. -/
theorem Operators.builtin?_of_call {operators : Operators} {f : FieldMapping} {g : OperatorFn}
    (called : operators.call f = .builtin g) : f.operator.builtin? = some g := by
  have named (name : String) : operators.registered? name ≠ some (.builtin g) := by
    unfold Operators.registered?
    cases Dict.get? operators name <;> simp
  have custom : (if f.operator.name = "custom" then
      operators.registered? (configText f.config "function") else none) ≠ some (.builtin g) := by
    split
    · exact named _
    · simp
  have found : ((operators.registered? f.operator.name).or
      (f.operator.builtin?.map Call.builtin)).or (if f.operator.name = "custom" then
        operators.registered? (configText f.config "function") else none) =
      some (.builtin g) := by
    simp only [Operators.call] at called
    revert called
    generalize Option.or _ _ = candidate
    intro called
    cases candidate with
    | none => cases called
    | some c => exact congrArg some called
  obtain first | ⟨_, last⟩ := Option.or_eq_some_iff.1 found
  · obtain registered | ⟨_, builtin⟩ := Option.or_eq_some_iff.1 first
    · exact absurd registered (named _)
    · obtain ⟨h, own, same⟩ := Option.map_eq_some_iff.1 builtin
      cases same
      exact own
  · exact absurd last custom

/-- The outcome of a field mapping depends on what it reads. -/
theorem FieldMapping.ReadsAlike.outcome {operators : Operators} {t t' : Tables} {f : FieldMapping}
    (alike : f.ReadsAlike operators t t') (lookup : t'.lookup = t.lookup) (v : Option Value)
    (payloads : Payloads) :
    (operators.call f).outcome v f.config payloads t' =
      (operators.call f).outcome v f.config payloads t := by
  cases called : operators.call f with
  | registered name g =>
    have labels := alike.registered (by rw [called]; exact List.cons_ne_nil _ _)
    have same : t' = t := by
      cases t
      cases t'
      cases lookup
      cases labels
      rfl
    rw [same]
  | builtin g =>
    exact Operator.builtin?_congr (Operators.builtin?_of_call called) lookup alike.labelled v
      payloads
  | unknown name => rfl

/-! ## Target records -/

/-- Two target records that show the same. -/
structure TargetRecord.Agrees (r r' : TargetRecord) : Prop where
  id : r'.id = r.id
  data : r'.data = r.data
  warnings : r'.warnings = r.warnings
  findings : r'.findings = r.findings

theorem TargetRecord.Agrees.isValid {r r' : TargetRecord} (h : r.Agrees r') :
    r'.isValid = r.isValid := by
  rw [TargetRecord.isValid, h.findings]
  rfl

/-- What validation finds depends on the data alone. -/
theorem Validation.findings_congr (rules : FieldRules) (s : EntitySchema) (strict : Bool)
    {r r' : TargetRecord} (same : r'.data = r.data) :
    findings rules s strict r' = findings rules s strict r := by
  have reads : r'.get? = r.get? := by
    funext path
    unfold TargetRecord.get?
    rw [same]
  unfold findings unknownFields
  rw [reads, same]

section

variable {tools tools' : Toolbox} {payloads : Payloads}
  (operators : tools'.operators = tools.operators)
  (lookup : tools'.tables.lookup = tools.tables.lookup)
include operators lookup

theorem FieldMapping.ReadsAlike.call {f : FieldMapping}
    (alike : f.ReadsAlike tools.operators tools.tables tools'.tables) (v : Option Value) :
    (tools'.operators.call f).outcome v f.config payloads tools'.tables =
      (tools.operators.call f).outcome v f.config payloads tools.tables := by
  rw [operators]
  exact alike.outcome lookup v payloads

theorem FieldMapping.ReadsAlike.step {f : FieldMapping}
    (alike : f.ReadsAlike tools.operators tools.tables tools'.tables) {r r' : TargetRecord}
    (h : r.Agrees r') :
    (EntityMapping.step tools payloads r f).Agrees (EntityMapping.step tools' payloads r' f) := by
  have written : f.writeInto tools' payloads r'.data = f.writeInto tools payloads r.data := by
    unfold FieldMapping.writeInto FieldMapping.value
    rw [alike.call operators lookup, h.data]
  unfold EntityMapping.step
  split
  · refine ⟨h.id, ?_, ?_, ?_⟩
    · exact congrArg Changed.value written
    · simp only [h.warnings, operators]
    · simp only [h.findings, written]
  · exact h

/-- Field mappings one after the other. -/
theorem EntityMapping.foldl_step_agrees (payloads : Payloads) (fields : List FieldMapping)
    (reads : ∀ f ∈ fields, f.ReadsAlike tools.operators tools.tables tools'.tables)
    (r r' : TargetRecord) (h : r.Agrees r') :
    (fields.foldl (EntityMapping.step tools payloads) r).Agrees
      (fields.foldl (EntityMapping.step tools' payloads) r') := by
  induction fields generalizing r r' with
  | nil => exact h
  | cons f rest ih =>
    have alike := reads f List.mem_cons_self
    exact ih (fun g member => reads g (List.mem_cons_of_mem f member)) _ _
      (alike.step operators lookup h)

theorem EntityMapping.targetId_congr {em : EntityMapping} {first first' : SourceRecord}
    (reads : ∀ f ∈ em.fields, f.ReadsAlike tools.operators tools.tables tools'.tables)
    (id : first'.id = first.id) (service : first'.service = first.service) :
    em.targetId tools' first' payloads = em.targetId tools first payloads := by
  unfold EntityMapping.targetId
  simp only
  split
  · rw [id, service]
  · rename_i f raw found
    obtain ⟨g, chosen, rest⟩ := Option.bind_eq_some_iff.1 found
    obtain ⟨_, _, same⟩ := Option.bind_eq_some_iff.1 rest
    cases same
    rw [(reads f (List.mem_of_find?_eq_some chosen)).call operators lookup]

end

/-- An entity mapping makes target records that show the same of the same payload, when it finds
the same in the tables. -/
theorem EntityMapping.apply_agrees (em : EntityMapping) (tools tools' : Toolbox)
    (operators : tools'.operators = tools.operators)
    (lookup : tools'.tables.lookup = tools.tables.lookup)
    (reads : ∀ f ∈ em.fields, f.ReadsAlike tools.operators tools.tables tools'.tables)
    (now : Calendar.Instant) (target target' : EntityRef) {source source' : SourceRecord}
    (id : source'.id = source.id) (service : source'.service = source.service)
    (data : source'.data = source.data) :
    ∃ r r', em.apply tools now target [source] = .ok r ∧
      em.apply tools' now target' [source'] = .ok r' ∧ r.Agrees r' := by
  have payloads : Payloads.ofRecords [source'] = Payloads.ofRecords [source] := by
    simp only [Payloads.ofRecords, List.map_cons, List.map_nil, service, data]
  refine ⟨_, _, rfl, rfl, ?_⟩
  rw [payloads]
  have agrees := foldl_step_agrees operators lookup (Payloads.ofRecords [source]) em.fields reads
    { id := em.targetId tools source (Payloads.ofRecords [source])
      service := target.service
      entity := target.entity
      sources := [source].map SourceRef.ofRecord
      transformedAt := now }
    { id := em.targetId tools' source' (Payloads.ofRecords [source])
      service := target'.service
      entity := target'.entity
      sources := [source'].map SourceRef.ofRecord
      transformedAt := now }
    ⟨EntityMapping.targetId_congr operators lookup reads id service, rfl, rfl, rfl⟩
  exact ⟨agrees.id, agrees.data, agrees.warnings, agrees.findings⟩

end DataMigration
