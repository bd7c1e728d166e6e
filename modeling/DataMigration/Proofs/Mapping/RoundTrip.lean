import DataMigration.Mapping.Document
import DataMigration.Proofs.Document.Written
import DataMigration.Proofs.Mapping.Contract
import DataMigration.Proofs.Mapping.Parts
import DataMigration.Proofs.Path.Joined

/-!
# Mappings written and read again

A mapping that is read from a document has what is needed to be written without loss: references
that are their texts, operators that have their names, dictionaries in order. It is read back from
every document that shows what is written for it, except that a default of null becomes none.
-/

namespace DataMigration

namespace EntityRef

theorem text_of_ofText? {s : String} {r : EntityRef} (read : ofText? s = some r) : r.text = s := by
  unfold ofText? at read
  obtain ⟨⟨service, entity⟩, cut, rest⟩ := Option.bind_eq_some_iff.1 read
  simp only at rest
  split at rest
  · cases rest
  · cases rest
    obtain ⟨⟨before, after⟩, chars, same⟩ := Option.map_eq_some_iff.1 cut
    cases same
    have dot : ".".toList = ['.'] := rfl
    rw [dot] at chars
    obtain ⟨whole, _⟩ := Text.cutChars_eq_some chars
    rw [text, ← String.toList_inj, whole]
    simp

/-- A reference that is read from a text keeps to the pattern unless its entity has a break. -/
theorem isReference_iff {s : String} {r : EntityRef} (read : ofText? s = some r) :
    Contract.isReference s = true ↔ '\n' ∉ r.entity.toList := by
  unfold ofText? at read
  obtain ⟨⟨service, entity⟩, cut, rest⟩ := Option.bind_eq_some_iff.1 read
  simp only at rest
  split at rest
  · cases rest
  · rename_i filled
    cases rest
    obtain ⟨service_ne, entity_ne⟩ := not_or.1 filled
    simp [Contract.isReference, cut, service_ne, entity_ne]

end EntityRef

namespace Operator

theorem ofName_name (s : String) : ofName (ofName s).name = ofName s := by
  have builtins : ∀ e ∈ builtin, ofName e.2.name = e.2 := by decide
  cases found : builtin.lookup s with
  | none =>
    have own : ofName s = .registered s := by rw [ofName, found]; rfl
    rw [own]
    exact own
  | some op =>
    have own : ofName s = op := by rw [ofName, found]; rfl
    obtain ⟨before, after, whole, _⟩ := List.lookup_eq_some_iff.1 found
    rw [own]
    exact builtins (s, op) (whole ▸ List.mem_append_right _ List.mem_cons_self)

end Operator

namespace FieldMapping

open DataMigration.Tree

/-- The fields that are written. -/
def written (m : FieldMapping) : List (String × Value) :=
  [("source_field", Value.orNull m.source Value.str), ("target_field", .str m.target),
    ("transform", .str m.operator.name)] ++
    (if m.config.isEmpty then [] else [("transform_config", Value.obj m.config)]) ++
    Value.textField "notes" m.notes ++
    (if m.required then [("required", Value.bool true)] else []) ++
    (Value.fieldIf "default" m.default fun v => v) ++
    Value.fieldIf "condition" m.condition Value.str

theorem toValue_eq (m : FieldMapping) : m.toValue = .obj m.written := rfl

theorem keys_written (m : FieldMapping) :
    (Dict.keys m.written).Sublist ["source_field", "target_field", "transform",
      "transform_config", "notes", "required", "default", "condition"] := by
  have config : (Dict.keys (if m.config.isEmpty then []
      else [("transform_config", Value.obj m.config)])).Sublist ["transform_config"] := by
    split
    · exact List.nil_sublist _
    · exact List.Sublist.refl _
  have required : (Dict.keys (if m.required then [("required", Value.bool true)] else [])).Sublist
      ["required"] := by
    split
    · exact List.Sublist.refl _
    · exact List.nil_sublist _
  unfold written
  simp only [Value.keys_append]
  exact ((((List.Sublist.refl _ |>.append config).append (Value.keys_textField _ _)).append
    required).append (Value.keys_fieldIf _ _ _)).append (Value.keys_fieldIf _ _ _)

theorem nodup_written (m : FieldMapping) : (Dict.keys m.written).Nodup :=
  m.keys_written.nodup (by decide)

theorem get?_written (m : FieldMapping) :
    Dict.get? m.written "source_field" = some (Value.orNull m.source Value.str) ∧
    Dict.get? m.written "target_field" = some (.str m.target) ∧
    Dict.get? m.written "transform" = some (.str m.operator.name) ∧
    Dict.get? m.written "transform_config" =
      (if m.config.isEmpty then none else some (.obj m.config)) ∧
    Dict.get? m.written "notes" = (if m.notes = "" then none else some (.str m.notes)) ∧
    Dict.get? m.written "required" = (if m.required then some (.bool true) else none) ∧
    Dict.get? m.written "default" = m.default ∧
    Dict.get? m.written "condition" = m.condition.map Value.str := by
  simp [written, Dict.get?_append, Value.get?_ite, Value.get?_textField, Value.get?_fieldIf,
    Dict.get?]

/-- What a field mapping that is read from a document has. -/
structure Stable (m : FieldMapping) : Prop where
  operator : Operator.ofName m.operator.name = m.operator
  config : (Value.obj m.config).Canonical
  default : ∀ v, m.default = some v → v.Canonical

theorem stable_of_ofTree? {P : Tree → Prop} {t : Tree} (leaves : t.Leaves P) {m : FieldMapping}
    (read : ofTree? t = some m) : m.Stable := by
  obtain ⟨r, record, _, _, operator, config, _, _, default, _⟩ := ofTree?_eq_some_iff.1 read
  constructor
  · obtain none | ⟨u, _, _, read⟩ := Record.exists_of_withDefault leaves record operator
    · rw [none]
      rfl
    · obtain ⟨s, _, same⟩ := Option.map_eq_some_iff.1 read
      rw [← same]
      exact Operator.ofName_name s
  · obtain none | ⟨u, _, own, read⟩ := Record.exists_of_withDefault leaves record config
    · rw [none]
      exact .obj List.Pairwise.nil (List.forall_mem_nil _)
    · exact canonical_object? own read
  · intro v same
    rw [same] at default
    obtain ⟨u, own, _, read⟩ := Record.exists_of_optional leaves record default
    exact own.canonical v read

/-- The field mapping as it is read back: a default of null is none. -/
def reread (m : FieldMapping) : FieldMapping := { m with default := Value.present m.default }

theorem reread_eq_iff {m : FieldMapping} : m.reread = m ↔ m.default ≠ some .null := by
  have absent : Value.present m.default = m.default ↔ m.default ≠ some .null := by
    cases m.default with
    | none => simp [Value.present]
    | some v => cases v <;> simp [Value.present, Value.isNull]
  rw [← absent]
  exact ⟨fun same => congrArg FieldMapping.default same, fun same => by rw [reread, same]⟩

/-- A field mapping that is written is read back up to a default of null. -/
theorem restores_toValue {m : FieldMapping} (stable : m.Stable) :
    Restores ofTree? m.toValue m.reread := by
  intro t shown
  obtain ⟨source, target, operator, config, notes, required, default, condition⟩ := m.get?_written
  have unnamed : Dict.get? m.written "default_value" = none := by
    rw [Dict.get?_eq_none_iff]
    intro given
    have among := m.keys_written.subset given
    simp at among
  obtain ⟨r, record, parts⟩ := Record.exists_of_shows apart_shape m.nodup_written
    (by simp [shape, fieldNames, unnamed]) shown
  have named : ∀ name ∈ shape.map FieldName.name, r.Part name (Dict.get? m.written name) :=
    List.forall_mem_map.2 parts
  have part : ∀ {name : String} {o : Option Value}, Dict.get? m.written name = o →
      name ∈ shape.map FieldName.name → r.Part name o := by
    rintro name _ rfl own
    exact named name own
  refine ofTree?_eq_some_iff.2 ⟨r, record, ?_, ?_, ?_, ?_, ?_, ?_, ?_, ?_⟩
  · exact Record.restores_given (part source (by decide))
      (restores_orNull fun a _ => ⟨restores_text a, by simp⟩)
  · exact Record.restores_required (part target (by decide)) (restores_text _)
  · refine Record.restores_given (part operator (by decide)) fun u shown => ?_
    rw [restores_text _ u shown, Option.map_some, stable.operator]
    rfl
  · exact Record.restores_unless (part config (by decide)) List.isEmpty_iff.1
      (restores_object stable.config)
  · exact Record.restores_textField (part notes (by decide))
  · exact Record.restores_flag (part required (by decide))
  · exact Record.restores_present (part default (by decide)) stable.default
  · exact Record.restores_fieldIf (part condition (by decide)) fun a _ => ⟨restores_text a, by simp⟩

end FieldMapping

namespace EntityMapping

open DataMigration.Tree

/-- The fields that are written. -/
def written (m : EntityMapping) : List (String × Value) :=
  [("source", .str m.source.text), ("target", .str m.target.text),
    ("description", .str m.description),
    ("field_mappings", .arr (m.fields.map FieldMapping.toValue)),
    ("dependencies", .texts m.dependencies), ("notes", .str m.notes)]

theorem toValue_eq (m : EntityMapping) : m.toValue = .obj m.written := rfl

theorem nodup_written (m : EntityMapping) : (Dict.keys m.written).Nodup := by
  have keys : Dict.keys m.written =
    ["source", "target", "description", "field_mappings", "dependencies", "notes"] := rfl
  rw [keys]
  decide

theorem get?_written (m : EntityMapping) :
    Dict.get? m.written "source" = some (.str m.source.text) ∧
    Dict.get? m.written "target" = some (.str m.target.text) ∧
    Dict.get? m.written "description" = some (.str m.description) ∧
    Dict.get? m.written "field_mappings" = some (.arr (m.fields.map FieldMapping.toValue)) ∧
    Dict.get? m.written "dependencies" = some (.texts m.dependencies) ∧
    Dict.get? m.written "notes" = some (.str m.notes) := by
  simp [written, Dict.get?]

/-- What an entity mapping that is read from a document has. -/
structure Stable (m : EntityMapping) : Prop where
  source : EntityRef.ofText? m.source.text = some m.source
  target : EntityRef.ofText? m.target.text = some m.target
  fields : ∀ f ∈ m.fields, f.Stable

theorem ofText?_text_of_required {r : Record} {name : String} {ref : EntityRef}
    (read : (r.required name fun t => t.text?.bind EntityRef.ofText?) = some ref) :
    EntityRef.ofText? ref.text = some ref := by
  obtain ⟨t, _, rest⟩ := Option.bind_eq_some_iff.1 read
  obtain ⟨s, _, own⟩ := Option.bind_eq_some_iff.1 rest
  rw [EntityRef.text_of_ofText? own, own]

theorem stable_of_ofTree? {P : Tree → Prop} {t : Tree} (leaves : t.Leaves P) {m : EntityMapping}
    (read : ofTree? t = some m) : m.Stable := by
  obtain ⟨r, record, _, source, target, _, fields, _⟩ := ofTree?_eq_some_iff.1 read
  refine ⟨ofText?_text_of_required source, ofText?_text_of_required target, fun f member => ?_⟩
  obtain none | ⟨u, _, own, list⟩ := Record.exists_of_withDefault leaves record fields
  · rw [none] at member
    cases member
  · obtain ⟨w, leaf, given⟩ := listOf?_eq_some own list f member
    exact FieldMapping.stable_of_ofTree? leaf given

/-- The entity mapping as it is read back. -/
def reread (m : EntityMapping) : EntityMapping :=
  { m with fields := m.fields.map FieldMapping.reread }

theorem reread_eq_iff {m : EntityMapping} :
    m.reread = m ↔ ∀ f ∈ m.fields, f.default ≠ some .null := by
  have fields : m.fields.map FieldMapping.reread = m.fields ↔
      ∀ f ∈ m.fields, f.default ≠ some .null := by
    rw [map_eq_self_iff]
    exact forall₂_congr fun f _ => FieldMapping.reread_eq_iff
  rw [← fields]
  exact ⟨fun same => congrArg EntityMapping.fields same, fun same => by rw [reread, same]⟩

/-- An entity mapping that is written is read back without its name. -/
theorem restores_toValue {m : EntityMapping} (stable : m.Stable) :
    Restores ofTree? m.toValue { m.reread with name := "" } := by
  intro t shown
  obtain ⟨r, record, part⟩ := Record.exists_of_shows apart_fieldNames m.nodup_written
    (by simp [DataMigration.fieldNames, fieldNames]) shown
  have named : ∀ name ∈ fieldNames, r.Part name (Dict.get? m.written name) :=
    fun name own => part ⟨name, none⟩ (List.mem_map_of_mem own)
  refine ofTree?_eq_some_iff.2 ⟨r, record, ?_, ?_, ?_, ?_, ?_, ?_, ?_⟩
  · have unnamed : Dict.get? m.written "name" = none := by simp [written, Dict.get?]
    have shownName := named "name" (by simp [fieldNames])
    rw [unnamed] at shownName
    exact Record.restores_withDefault shownName (fun _ => rfl) (by simp)
  · refine Record.restores_required (named "source" (by simp [fieldNames])) fun u shown => ?_
    rw [restores_text _ u shown]
    exact stable.source
  · refine Record.restores_required (named "target" (by simp [fieldNames])) fun u shown => ?_
    rw [restores_text _ u shown]
    exact stable.target
  · exact Record.restores_given (named "description" (by simp [fieldNames])) (restores_text _)
  · refine Record.restores_given (named "field_mappings" (by simp [fieldNames]))
      (restores_listOf ?_)
    exact List.forall₂_map_left_iff.2 (List.forall₂_map_right_iff.2
      (List.forall₂_same.2 fun f member => FieldMapping.restores_toValue (stable.fields f member)))
  · exact Record.restores_given (named "dependencies" (by simp [fieldNames])) (restores_texts _)
  · exact Record.restores_given (named "notes" (by simp [fieldNames])) (restores_text _)

end EntityMapping

namespace Mapping

open DataMigration.Tree

/-- The fields that are written. -/
def written (m : Mapping) : List (String × Value) :=
  [("name", .str m.name), ("version", .str m.version), ("description", .str m.description),
    ("source_services", .texts m.sourceServices), ("target_service", .str m.targetService),
    ("mappings", .obj (m.entities.map fun e => (e.name, e.toValue))),
    ("migration_order", .texts m.order),
    ("transform_functions", Value.ofDict Value.obj m.functions),
    ("status_mappings", Value.ofDict (Value.ofDict Value.str) m.labels)]

theorem toValue_eq (m : Mapping) : m.toValue = .obj m.written := rfl

theorem keys_written (m : Mapping) : Dict.keys m.written = fieldNames := rfl

theorem nodup_written (m : Mapping) : (Dict.keys m.written).Nodup := by
  rw [keys_written]
  decide

theorem get?_written (m : Mapping) :
    Dict.get? m.written "name" = some (.str m.name) ∧
    Dict.get? m.written "version" = some (.str m.version) ∧
    Dict.get? m.written "description" = some (.str m.description) ∧
    Dict.get? m.written "source_services" = some (.texts m.sourceServices) ∧
    Dict.get? m.written "target_service" = some (.str m.targetService) ∧
    Dict.get? m.written "mappings" = some (.obj (m.entities.map fun e => (e.name, e.toValue))) ∧
    Dict.get? m.written "migration_order" = some (.texts m.order) ∧
    Dict.get? m.written "transform_functions" = some (Value.ofDict Value.obj m.functions) ∧
    Dict.get? m.written "status_mappings" =
      some (Value.ofDict (Value.ofDict Value.str) m.labels) := by
  simp [written, Dict.get?]

theorem exists_of_entriesOfTree? {P : Tree → Prop} {t : Tree} (leaves : t.Leaves P)
    {es : List EntityMapping} (given : entriesOfTree? t = some es) {e : EntityMapping}
    (member : e ∈ es) :
    ∃ u, u.Leaves P ∧ ∃ bare name, EntityMapping.ofTree? u = some bare ∧ e = { bare with name } := by
  obtain ⟨entries, inside, all⟩ := Option.bind_eq_some_iff.1 given
  obtain ⟨entry, among, own⟩ := exists_of_mem_mapM all member
  obtain ⟨bare, read, rfl⟩ := Option.map_eq_some_iff.1 own
  exact ⟨entry.2, leaves.entries?_forall inside entry among, bare, _, read, rfl⟩

/-- What a mapping that is read from a document has. -/
structure Stable (m : Mapping) : Prop where
  entities : ∀ e ∈ m.entities, e.Stable
  functions : Dict.Sorted m.functions
  settings : ∀ e ∈ m.functions, (Value.obj e.2).Canonical
  tables : Dict.Sorted m.labels
  labels : ∀ e ∈ m.labels, Dict.Sorted e.2

theorem stable_of_ofTree? {P : Tree → Prop} {t : Tree} (leaves : t.Leaves P) {m : Mapping}
    (read : ofTree? t = some m) : m.Stable := by
  obtain ⟨r, record, _, _, _, _, _, entities, _, functions, labels⟩ := ofTree?_eq_some_iff.1 read
  have entity : ∀ e ∈ m.entities, e.Stable := by
    intro e member
    obtain none | ⟨u, _, own, given⟩ := Record.exists_of_withDefault leaves record entities
    · rw [none] at member
      cases member
    · obtain ⟨w, leaf, bare, name, read, rfl⟩ := exists_of_entriesOfTree? own given member
      obtain ⟨source, target, fields⟩ := EntityMapping.stable_of_ofTree? leaf read
      exact ⟨source, target, fields⟩
  have function : Dict.Sorted m.functions ∧ ∀ e ∈ m.functions, (Value.obj e.2).Canonical := by
    obtain none | ⟨u, _, own, given⟩ := Record.exists_of_withDefault leaves record functions
    · rw [none]
      exact ⟨List.Pairwise.nil, List.forall_mem_nil _⟩
    · obtain ⟨sorted, each⟩ := dictOf?_eq_some own given
      refine ⟨sorted, fun e member => ?_⟩
      obtain ⟨w, leaf, read⟩ := each e member
      exact canonical_object? leaf read
  have label : Dict.Sorted m.labels ∧ ∀ e ∈ m.labels, Dict.Sorted e.2 := by
    obtain none | ⟨u, _, own, given⟩ := Record.exists_of_withDefault leaves record labels
    · rw [none]
      exact ⟨List.Pairwise.nil, List.forall_mem_nil _⟩
    · obtain ⟨sorted, each⟩ := dictOf?_eq_some own given
      refine ⟨sorted, fun e member => ?_⟩
      obtain ⟨w, leaf, read⟩ := each e member
      exact (dictOf?_eq_some leaf read).1
  exact ⟨entity, function.1, function.2, label.1, label.2⟩

/-- The mapping as it is read back. -/
def reread (m : Mapping) : Mapping := { m with entities := m.entities.map EntityMapping.reread }

/-- No field mapping has a default of null, which stands for no default. -/
def DefaultsPresent (m : Mapping) : Prop :=
  ∀ e ∈ m.entities, ∀ f ∈ e.fields, f.default ≠ some .null

theorem reread_eq_iff {m : Mapping} : m.reread = m ↔ m.DefaultsPresent := by
  have entities : m.entities.map EntityMapping.reread = m.entities ↔ m.DefaultsPresent := by
    rw [map_eq_self_iff]
    exact forall₂_congr fun e _ => EntityMapping.reread_eq_iff
  rw [← entities]
  exact ⟨fun same => congrArg Mapping.entities same, fun same => by rw [reread, same]⟩

theorem restores_entries {entities : List EntityMapping} (stable : ∀ e ∈ entities, e.Stable) :
    Restores entriesOfTree? (.obj (entities.map fun e => (e.name, e.toValue)))
      (entities.map EntityMapping.reread) := by
  intro t shown
  obtain ⟨entries, rfl, pairs⟩ := shows_obj shown
  rw [entriesOfTree?, entries?, Option.bind_some, mapM_eq_some_iff,
    List.forall₂_map_right_iff]
  rw [List.forall₂_map_right_iff] at pairs
  clear shown
  induction pairs with
  | nil => exact .nil
  | @cons entry e _ _ pair _ ih =>
    obtain ⟨first, others⟩ := List.forall_mem_cons.1 stable
    refine .cons ?_ (ih others)
    rw [entryOfTree?, EntityMapping.restores_toValue first _ pair.2, pair.1]
    rfl

/-- A mapping that is written is read back up to defaults of null. -/
theorem restores_toValue {m : Mapping} (stable : m.Stable) : Restores ofTree? m.toValue m.reread := by
  intro t shown
  obtain ⟨r, record, part⟩ := Record.exists_of_shows apart_fieldNames m.nodup_written
    (by simp [DataMigration.fieldNames, fieldNames]) shown
  have named : ∀ name ∈ fieldNames, r.Part name (Dict.get? m.written name) :=
    fun name own => part ⟨name, none⟩ (List.mem_map_of_mem own)
  refine ofTree?_eq_some_iff.2 ⟨r, record, ?_, ?_, ?_, ?_, ?_, ?_, ?_, ?_, ?_⟩
  · exact Record.restores_required (named "name" (by simp [fieldNames])) (restores_text _)
  · exact Record.restores_given (named "version" (by simp [fieldNames])) (restores_text _)
  · exact Record.restores_given (named "description" (by simp [fieldNames])) (restores_text _)
  · exact Record.restores_given (named "source_services" (by simp [fieldNames])) (restores_texts _)
  · exact Record.restores_given (named "target_service" (by simp [fieldNames])) (restores_text _)
  · exact Record.restores_given (named "mappings" (by simp [fieldNames]))
      (restores_entries stable.entities)
  · exact Record.restores_given (named "migration_order" (by simp [fieldNames])) (restores_texts _)
  · exact Record.restores_given (named "transform_functions" (by simp [fieldNames]))
      (restores_dictOf stable.functions fun e member => restores_object (stable.settings e member))
  · exact Record.restores_given (named "status_mappings" (by simp [fieldNames]))
      (restores_dictOf stable.tables fun e member =>
        restores_dictOf (stable.labels e member) fun label _ => restores_text label.2)

end Mapping

end DataMigration
