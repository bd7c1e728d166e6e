import DataMigration.Proofs.Document.Written
import DataMigration.Proofs.Schema.Parts
import DataMigration.Proofs.Schema.Placement

/-!
# Schemas written and read again

A schema that is read from a document in which only null is null, and placed, is read back from
every document that shows what is written for it, and placing it again changes nothing.
-/

namespace DataMigration

open DataMigration.Tree

namespace FieldSchema

theorem toFields_eq (ps : List (String × FieldSchema)) :
    toFields ps = Dict.mapValues toValue ps := by
  induction ps with
  | nil => rfl
  | cons e ps ih =>
    obtain ⟨k, s⟩ := e
    rw [toFields, ih]
    rfl

/-- The fields that are written. -/
def written (s : FieldSchema) : List (String × Value) :=
  [("name", .str s.info.name), ("type", .str s.info.type.name)] ++
    Value.textField "description" s.info.description ++ [("required", .bool s.info.required)] ++
    Value.fieldIf "max_length" s.info.maxLength Value.nat ++
    Value.fieldIf "enum" s.info.allowed Value.texts ++
    Value.fieldIf "default" s.info.default id ++ Value.fieldIf "example" s.info.sample id ++
    Value.fieldIf "properties" s.properties (Value.ofDict toValue) ++
    Value.fieldIf "items" s.items toValue ++ Value.textField "notes" s.info.notes

theorem toValue_eq (s : FieldSchema) : s.toValue = .obj s.written := by
  obtain ⟨info, properties, items⟩ := s
  have ofProperties : propertiesField properties =
      Value.fieldIf "properties" properties (Value.ofDict toValue) := by
    cases properties with
    | none => rfl
    | some ps =>
      rw [propertiesField, toFields_eq]
      rfl
  have ofItems : itemsField items = Value.fieldIf "items" items toValue := by cases items <;> rfl
  rw [toValue, ofProperties, ofItems]
  rfl

theorem nodup_written (s : FieldSchema) : (Dict.keys s.written).Nodup := by
  have keys : (Dict.keys s.written).Sublist ["name", "type", "description", "required",
      "max_length", "enum", "default", "example", "properties", "items", "notes"] := by
    unfold written
    simp only [Value.keys_append]
    exact ((((((((List.Sublist.refl _ |>.append (Value.keys_textField _ _)).append
      (List.Sublist.refl _)).append (Value.keys_fieldIf _ _ _)).append
      (Value.keys_fieldIf _ _ _)).append (Value.keys_fieldIf _ _ _)).append
      (Value.keys_fieldIf _ _ _)).append (Value.keys_fieldIf _ _ _)).append
      (Value.keys_fieldIf _ _ _)).append (Value.keys_textField _ _)
  exact keys.nodup (by decide)

theorem get?_written (s : FieldSchema) :
    Dict.get? s.written "name" = some (.str s.info.name) ∧
    Dict.get? s.written "type" = some (.str s.info.type.name) ∧
    Dict.get? s.written "description" =
      (if s.info.description = "" then none else some (.str s.info.description)) ∧
    Dict.get? s.written "required" = some (.bool s.info.required) ∧
    Dict.get? s.written "max_length" = s.info.maxLength.map Value.nat ∧
    Dict.get? s.written "enum" = s.info.allowed.map Value.texts ∧
    Dict.get? s.written "default" = s.info.default.map id ∧
    Dict.get? s.written "example" = s.info.sample.map id ∧
    Dict.get? s.written "properties" = s.properties.map (Value.ofDict toValue) ∧
    Dict.get? s.written "items" = s.items.map toValue ∧
    Dict.get? s.written "notes" =
      (if s.info.notes = "" then none else some (.str s.info.notes)) := by
  simp [written, Dict.get?_append, Value.get?_textField, Value.get?_fieldIf, Dict.get?]

end FieldSchema

/-- What the declarations about a field have when they are read from a document. -/
structure FieldInfo.Stable (i : FieldInfo) : Prop where
  maxLength : ∀ n, i.maxLength = some n → Decimal.isWord n = true
  default : ∀ v, i.default = some v → v.Canonical ∧ v ≠ .null
  sample : ∀ v, i.sample = some v → v.Canonical ∧ v ≠ .null

namespace FieldSchema

/-- What the contract of a field has, at every depth, when it is read from a document. -/
inductive Stable : FieldSchema → Prop
  | mk {info : FieldInfo} {properties : Option (List (String × FieldSchema))}
      {items : Option FieldSchema} (own : info.Stable)
      (sorted : ∀ ps, properties = some ps → Dict.Sorted ps)
      (inside : ∀ ps, properties = some ps → ∀ e ∈ ps, Stable e.2)
      (elements : ∀ s, items = some s → Stable s) : Stable (.mk info properties items)

theorem isWord_of_word? {t : Tree} {n : Nat} (read : t.word? = some n) :
    Decimal.isWord n = true := by
  cases t with
  | value v =>
    cases v with
    | num m =>
      cases m with
      | int i =>
        simp only [word?, Number.toWord?] at read
        split at read
        · rename_i small
          cases read
          have positive : 0 ≤ i := of_decide_eq_true (Bool.and_eq_true_iff.1 small).1
          rwa [Int.toNat_of_nonneg positive]
        · cases read
      | float x => cases read
    | _ => cases read
  | bare s =>
    obtain ⟨_, small⟩ := Option.filter_eq_some_iff.1 read
    exact small
  | _ => cases read

variable {t : Tree}

theorem stable_infoOf? {r : Record} {info : FieldInfo} (leaves : t.Leaves IsDefinite)
    (record : Record.ofTree? shape t = some r) (read : infoOf? r = some info) : info.Stable := by
  obtain ⟨_, _, _, _, maxLength, _, default, sample, _⟩ := infoOf?_eq_some_iff.1 read
  have value : ∀ {name : String} {o : Option Value}, r.optional name value? = some o → ∀ v,
      o = some v → v.Canonical ∧ v ≠ .null := by
    rintro name _ given v rfl
    obtain ⟨u, own, present, read⟩ := Record.exists_of_optional leaves record given
    refine ⟨own.canonical v read, ?_⟩
    rintro rfl
    exact present (own.definite read)
  refine ⟨fun n given => ?_, value default, value sample⟩
  rw [given] at maxLength
  obtain ⟨u, _, _, read⟩ := Record.exists_of_optional leaves record maxLength
  exact isWord_of_word? read

theorem stable_of_ofTreeWithin? {depth : Nat} (leaves : t.Leaves IsDefinite) {s : FieldSchema}
    (read : ofTreeWithin? depth t = some s) : s.Stable := by
  induction depth generalizing t s with
  | zero => cases read
  | succ depth ih =>
    obtain ⟨r, record, info, properties, items⟩ := ofTreeWithin?_succ_eq_some_iff.1 read
    obtain ⟨i, ps, element⟩ := s
    have inside : ∀ ps', ps = some ps' → Dict.Sorted ps' ∧ ∀ e ∈ ps', Stable e.2 := by
      rintro ps' rfl
      obtain ⟨u, own, _, given⟩ := Record.exists_of_optional leaves record properties
      obtain ⟨sorted, each⟩ := dictOf?_eq_some own given
      refine ⟨sorted, fun e member => ?_⟩
      obtain ⟨w, leaf, read⟩ := each e member
      exact ih leaf read
    refine .mk (stable_infoOf? leaves record info) (fun ps' same => (inside ps' same).1)
      (fun ps' same => (inside ps' same).2) ?_
    rintro s rfl
    obtain ⟨u, own, _, given⟩ := Record.exists_of_optional leaves record items
    exact ih own given

theorem sorted_placedAll {ps : Dict FieldSchema} (sorted : Dict.Sorted ps) :
    Dict.Sorted (placedAll ps) := by
  rw [placedAll_eq]
  exact List.pairwise_map.2 sorted

theorem Stable.placed {s : FieldSchema} (stable : s.Stable) (name : String) :
    (s.placed name).Stable := by
  induction stable generalizing name with
  | @mk info properties items own sorted _ _ ih ihItems =>
    refine .mk ⟨own.maxLength, own.default, own.sample⟩ ?_ ?_ ?_
    · intro ps same
      split at same
      · cases properties with
        | none => cases same
        | some qs =>
          cases same
          exact sorted_placedAll (sorted qs rfl)
      · cases same
    · intro ps same e member
      split at same
      · cases properties with
        | none => cases same
        | some qs =>
          cases same
          rw [placedAll_eq] at member
          obtain ⟨q, among, rfl⟩ := List.mem_map.1 member
          exact ih qs rfl q among q.1
      · cases same
    · intro i same
      split at same
      · cases items with
        | none => cases same
        | some j =>
          cases same
          exact ihItems j rfl name
      · cases same

/-- What is declared about a field itself is read back from a record of its written fields. -/
theorem infoOf?_of_parts {s : FieldSchema} (stable : s.info.Stable) {r : Record}
    (parts : ∀ name ∈ shape.map FieldName.name, r.Part name (Dict.get? s.written name)) :
    infoOf? r = some s.info := by
  obtain ⟨name, type, description, required, maxLength, allowed, default, sample, _, _, notes⟩ :=
    s.get?_written
  have part : ∀ {name : String} {o : Option Value}, Dict.get? s.written name = o →
      name ∈ shape.map FieldName.name → r.Part name o := by
    rintro name _ rfl own
    exact parts name own
  refine infoOf?_eq_some_iff.2 ⟨?_, ?_, ?_, ?_, ?_, ?_, ?_, ?_, ?_⟩
  · exact Record.restores_given (part name (by decide)) (restores_text _)
  · refine Record.restores_given (part type (by decide)) fun u shown => ?_
    rw [restores_text _ u shown, Option.map_some, FieldType.ofName_name]
  · exact Record.restores_textField (part description (by decide))
  · exact Record.restores_given (part required (by decide)) (restores_bool _)
  · exact Record.restores_fieldIf (part maxLength (by decide)) fun n given =>
      ⟨restores_word (stable.maxLength n given), nofun⟩
  · exact Record.restores_fieldIf (part allowed (by decide)) fun xs _ =>
      ⟨restores_texts xs, nofun⟩
  · exact Record.restores_fieldIf (part default (by decide)) fun v given =>
      ⟨restores_value (stable.default v given).1, (stable.default v given).2⟩
  · exact Record.restores_fieldIf (part sample (by decide)) fun v given =>
      ⟨restores_value (stable.sample v given).1, (stable.sample v given).2⟩
  · exact Record.restores_textField (part notes (by decide))

theorem restores_within {s : FieldSchema} (stable : s.Stable) {depth : Nat}
    (deep : s.toValue.depth < depth) : Restores (ofTreeWithin? depth) s.toValue s := by
  induction stable generalizing depth with
  | @mk info properties items own sorted _ _ ih ihItems =>
    intro t shown
    let s := FieldSchema.mk info properties items
    have plain : ∀ f ∈ shape, ∀ other ∈ f.alternative, Dict.get? s.written other = none := by
      simp [shape, fieldNames]
    rw [toValue_eq] at shown deep
    obtain ⟨r, record, part⟩ := Record.exists_of_shows apart_shape (nodup_written _) plain shown
    have named : ∀ name ∈ shape.map FieldName.name, r.Part name (Dict.get? s.written name) :=
      List.forall_mem_map.2 part
    obtain ⟨_, _, _, _, _, _, _, _, hasProperties, hasItems, _⟩ := s.get?_written
    obtain ⟨depth, rfl⟩ := Nat.exists_eq_succ_of_ne_zero (Nat.ne_of_gt (Nat.zero_lt_of_lt deep))
    have inner : ∀ {k : String} {v : Value}, Dict.get? s.written k = some v → v.depth < depth :=
      fun held => Nat.lt_of_lt_of_le (Value.depth_lt_of_mem (Dict.mem_of_get? held))
        (Nat.le_of_lt_succ deep)
    refine ofTreeWithin?_succ_eq_some_iff.2 ⟨r, record, infoOf?_of_parts (s := s) own named, ?_, ?_⟩
    · have shownProperties := named "properties" (by decide)
      rw [hasProperties] at shownProperties
      refine Record.restores_fieldIf shownProperties fun ps given => ⟨?_, nofun⟩
      have held : (Value.ofDict toValue ps).depth < depth := inner (by rw [hasProperties, given]; rfl)
      refine restores_dictOf (sorted ps given) fun e member => ih ps given e member ?_
      have among : (e.1, e.2.toValue) ∈ Dict.mapValues toValue ps := List.mem_map_of_mem member
      exact Nat.lt_trans (Value.depth_lt_of_mem among) held
    · have shownItems := named "items" (by decide)
      rw [hasItems] at shownItems
      refine Record.restores_fieldIf shownItems fun i given => ⟨?_, ?_⟩
      · exact ihItems i given (inner (by rw [hasItems, given]; rfl))
      · rw [toValue_eq]
        exact nofun

/-- A field that is written is read back. -/
theorem restores_toValue {s : FieldSchema} (stable : s.Stable) : Restores ofTree? s.toValue s := by
  intro t shown
  exact restores_within stable (by rw [depth_of_shows shown]; exact Nat.lt_succ_self _) t shown

mutual

/-- Placing a field again changes nothing. -/
theorem placed_placed (name : String) : ∀ s : FieldSchema,
    (s.placed name).placed name = s.placed name
  | mk info properties items => by
    have named : (if (if info.name = "" then name else info.name) = "" then name
        else if info.name = "" then name else info.name) =
          if info.name = "" then name else info.name := by
      split <;> simp_all
    simp only [placed, named, FieldSchema.mk.injEq, true_and]
    constructor
    · split
      · exact placedProperties_placedProperties properties
      · rfl
    · split
      · exact placedItems_placedItems name items
      · rfl

theorem placedProperties_placedProperties : ∀ ps : Option (List (String × FieldSchema)),
    placedProperties (placedProperties ps) = placedProperties ps
  | none => rfl
  | some ps => congrArg some (placedAll_placedAll ps)

theorem placedAll_placedAll : ∀ ps : List (String × FieldSchema),
    placedAll (placedAll ps) = placedAll ps
  | [] => rfl
  | (name, s) :: ps => by
    rw [placedAll, placedAll, placed_placed name s, placedAll_placedAll ps]

theorem placedItems_placedItems (name : String) : ∀ s : Option FieldSchema,
    placedItems name (placedItems name s) = placedItems name s
  | none => rfl
  | some s => congrArg some (placed_placed name s)

end

end FieldSchema

namespace EntitySchema

/-- The fields that are written. -/
def written (s : EntitySchema) : List (String × Value) :=
  [("name", .str s.name)] ++ Value.textField "description" s.description ++
    Value.textField "api_endpoint" s.endpoint ++
    [("fields", Value.ofDict FieldSchema.toValue s.fields), ("primary_key", .str s.primaryKey)]

theorem toValue_eq (s : EntitySchema) : s.toValue = .obj s.written := by
  rw [toValue, FieldSchema.toFields_eq]
  rfl

theorem nodup_written (s : EntitySchema) : (Dict.keys s.written).Nodup := by
  have keys : (Dict.keys s.written).Sublist fieldNames := by
    unfold written
    simp only [Value.keys_append]
    exact ((List.Sublist.refl _ |>.append (Value.keys_textField _ _)).append
      (Value.keys_textField _ _)).append (List.Sublist.refl _)
  exact keys.nodup (by decide)

theorem get?_written (s : EntitySchema) :
    Dict.get? s.written "name" = some (.str s.name) ∧
    Dict.get? s.written "description" =
      (if s.description = "" then none else some (.str s.description)) ∧
    Dict.get? s.written "api_endpoint" =
      (if s.endpoint = "" then none else some (.str s.endpoint)) ∧
    Dict.get? s.written "fields" = some (Value.ofDict FieldSchema.toValue s.fields) ∧
    Dict.get? s.written "primary_key" = some (.str s.primaryKey) := by
  simp [written, Dict.get?_append, Value.get?_textField, Dict.get?]

/-- What an entity schema has when it is read from a document. -/
structure Stable (s : EntitySchema) : Prop where
  sorted : Dict.Sorted s.fields
  fields : ∀ e ∈ s.fields, e.2.Stable

theorem stable_of_ofTree? {t : Tree} (leaves : t.Leaves IsDefinite) {s : EntitySchema}
    (read : ofTree? t = some s) : s.Stable := by
  obtain ⟨r, record, _, _, _, fields, _⟩ := ofTree?_eq_some_iff.1 read
  obtain none | ⟨u, _, own, given⟩ := Record.exists_of_withDefault leaves record fields
  · refine ⟨?_, ?_⟩ <;> rw [none]
    · exact List.Pairwise.nil
    · exact List.forall_mem_nil _
  · obtain ⟨sorted, each⟩ := dictOf?_eq_some own given
    refine ⟨sorted, fun e member => ?_⟩
    obtain ⟨w, leaf, read⟩ := each e member
    exact FieldSchema.stable_of_ofTreeWithin? leaf read

theorem Stable.placed {s : EntitySchema} (stable : s.Stable) (name : String) :
    (s.placed name).Stable := by
  refine ⟨FieldSchema.sorted_placedAll stable.sorted, fun e member => ?_⟩
  rw [EntitySchema.placed, FieldSchema.placedAll_eq] at member
  obtain ⟨f, among, rfl⟩ := List.mem_map.1 member
  exact (stable.fields f among).placed f.1

theorem placed_placed (name : String) (s : EntitySchema) :
    (s.placed name).placed name = s.placed name := by
  unfold placed
  simp only [FieldSchema.placedAll_placedAll]
  congr 1
  split <;> simp_all

/-- An entity that is written is read back. -/
theorem restores_toValue {s : EntitySchema} (stable : s.Stable) : Restores ofTree? s.toValue s := by
  intro t shown
  rw [toValue_eq] at shown
  obtain ⟨r, record, part⟩ := Record.exists_of_shows apart_fieldNames s.nodup_written
    (by simp [DataMigration.fieldNames, fieldNames]) shown
  have named : ∀ name ∈ fieldNames, r.Part name (Dict.get? s.written name) :=
    fun name own => part ⟨name, none⟩ (List.mem_map_of_mem own)
  obtain ⟨hasName, hasDescription, hasEndpoint, hasFields, hasKey⟩ := s.get?_written
  refine ofTree?_eq_some_iff.2 ⟨r, record, ?_, ?_, ?_, ?_, ?_⟩
  · exact Record.restores_given (hasName ▸ named "name" (by simp [fieldNames])) (restores_text _)
  · exact Record.restores_textField (hasDescription ▸ named "description" (by simp [fieldNames]))
  · exact Record.restores_textField (hasEndpoint ▸ named "api_endpoint" (by simp [fieldNames]))
  · exact Record.restores_given (hasFields ▸ named "fields" (by simp [fieldNames]))
      (restores_dictOf stable.sorted fun e member =>
        FieldSchema.restores_toValue (stable.fields e member))
  · exact Record.restores_given (hasKey ▸ named "primary_key" (by simp [fieldNames]))
      (restores_text _)

end EntitySchema

namespace ServiceSchema

/-- The fields that are written. -/
def written (s : ServiceSchema) : List (String × Value) :=
  [("name", .str s.name)] ++ Value.textField "version" s.version ++
    Value.textField "description" s.description ++
    [("entities", Value.ofDict EntitySchema.toValue s.entities)] ++
    Value.textField "api_version" s.apiVersion ++ Value.textField "base_url" s.baseUrl

theorem nodup_written (s : ServiceSchema) : (Dict.keys s.written).Nodup := by
  have keys : (Dict.keys s.written).Sublist fieldNames := by
    unfold written
    simp only [Value.keys_append]
    exact ((((List.Sublist.refl _ |>.append (Value.keys_textField _ _)).append
      (Value.keys_textField _ _)).append (List.Sublist.refl _)).append
      (Value.keys_textField _ _)).append (Value.keys_textField _ _)
  exact keys.nodup (by decide)

theorem get?_written (s : ServiceSchema) :
    Dict.get? s.written "name" = some (.str s.name) ∧
    Dict.get? s.written "version" = (if s.version = "" then none else some (.str s.version)) ∧
    Dict.get? s.written "description" =
      (if s.description = "" then none else some (.str s.description)) ∧
    Dict.get? s.written "entities" = some (Value.ofDict EntitySchema.toValue s.entities) ∧
    Dict.get? s.written "api_version" =
      (if s.apiVersion = "" then none else some (.str s.apiVersion)) ∧
    Dict.get? s.written "base_url" = (if s.baseUrl = "" then none else some (.str s.baseUrl)) := by
  simp [written, Dict.get?_append, Value.get?_textField, Dict.get?]

/-- What a service schema has when it is read from a document. -/
structure Stable (s : ServiceSchema) : Prop where
  sorted : Dict.Sorted s.entities
  entities : ∀ e ∈ s.entities, e.2.Stable

theorem stable_of_ofTree? {t : Tree} (leaves : t.Leaves IsDefinite) {s : ServiceSchema}
    (read : ofTree? t = some s) : s.Stable := by
  obtain ⟨r, record, _, _, _, entities, _⟩ := ofTree?_eq_some_iff.1 read
  obtain none | ⟨u, _, own, given⟩ := Record.exists_of_withDefault leaves record entities
  · refine ⟨?_, ?_⟩ <;> rw [none]
    · exact List.Pairwise.nil
    · exact List.forall_mem_nil _
  · obtain ⟨sorted, each⟩ := dictOf?_eq_some own given
    refine ⟨sorted, fun e member => ?_⟩
    obtain ⟨w, leaf, read⟩ := each e member
    exact EntitySchema.stable_of_ofTree? leaf read

theorem Stable.placed {s : ServiceSchema} (stable : s.Stable) : s.placed.Stable := by
  refine ⟨List.pairwise_map.2 stable.sorted, fun e member => ?_⟩
  obtain ⟨f, among, rfl⟩ := List.mem_map.1 member
  exact (stable.entities f among).placed f.1

theorem placed_placed (s : ServiceSchema) : s.placed.placed = s.placed := by
  simp [placed, EntitySchema.placed_placed]

/-- A service that is written is read back. -/
theorem restores_toValue {s : ServiceSchema} (stable : s.Stable) : Restores ofTree? s.toValue s := by
  intro t shown
  obtain ⟨r, record, part⟩ := Record.exists_of_shows apart_fieldNames s.nodup_written
    (by simp [DataMigration.fieldNames, fieldNames]) shown
  have named : ∀ name ∈ fieldNames, r.Part name (Dict.get? s.written name) :=
    fun name own => part ⟨name, none⟩ (List.mem_map_of_mem own)
  obtain ⟨hasName, hasVersion, hasDescription, hasEntities, hasApiVersion, hasBaseUrl⟩ :=
    s.get?_written
  refine ofTree?_eq_some_iff.2 ⟨r, record, ?_, ?_, ?_, ?_, ?_, ?_⟩
  · exact Record.restores_required (hasName ▸ named "name" (by simp [fieldNames]))
      (restores_text _)
  · exact Record.restores_textField (hasVersion ▸ named "version" (by simp [fieldNames]))
  · exact Record.restores_textField (hasDescription ▸ named "description" (by simp [fieldNames]))
  · exact Record.restores_given (hasEntities ▸ named "entities" (by simp [fieldNames]))
      (restores_dictOf stable.sorted fun e member =>
        EntitySchema.restores_toValue (stable.entities e member))
  · exact Record.restores_textField (hasApiVersion ▸ named "api_version" (by simp [fieldNames]))
  · exact Record.restores_textField (hasBaseUrl ▸ named "base_url" (by simp [fieldNames]))

end ServiceSchema

end DataMigration
