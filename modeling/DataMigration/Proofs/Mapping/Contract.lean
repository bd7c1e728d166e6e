import DataMigration.Mapping.Document
import DataMigration.Proofs.Document.Once
import DataMigration.Proofs.Mapping.Parts

/-!
# What the contract of mappings promises

The contract and the reader are two descriptions of one format. A value that keeps to the contract
can be read if it gives no default under both its names and has what the contract leaves open; the
names that entity mappings give themselves, the settings of functions and the labels are not part of
the contract, and where they do not fit the document is refused without a violation.
-/

namespace DataMigration

namespace Contract

variable {v : Value}

attribute [local simp] violations

theorem fits_text : violations .text v = [] ↔ ∃ s, v = .str s := by
  cases v <;> simp

theorem fits_filled : violations .filled v = [] ↔ ∃ s, v = .str s ∧ s ≠ "" := by
  cases v <;> simp

theorem fits_reference : violations .reference v = [] ↔ ∃ s, v = .str s ∧ isReference s = true := by
  cases v <;> simp

theorem fits_optionalText : violations .optionalText v = [] ↔ v = .null ∨ ∃ s, v = .str s := by
  cases v <;> simp

theorem fits_flag : violations .flag v = [] ↔ ∃ b, v = .bool b := by
  cases v <;> simp

theorem fits_object : violations .object v = [] ↔ ∃ fields, v = .obj fields := by
  cases v <;> simp

theorem ofElements_eq_nil_iff {check : Value → List Violation} {i : Nat} {vs : List Value} :
    ofElements check i vs = [] ↔ ∀ v ∈ vs, check v = [] := by
  induction vs generalizing i with
  | nil => simp [ofElements]
  | cons v vs ih => simp [ofElements, ih]

theorem fits_list {element : Contract} :
    violations (.list element) v = [] ↔
      ∃ items, v = .arr items ∧ ∀ w ∈ items, violations element w = [] := by
  cases v <;> simp [ofElements_eq_nil_iff]

theorem fits_objects {entry : Contract} :
    violations (.objects entry) v = [] ↔
      ∃ fields, v = .obj fields ∧ ∀ e ∈ fields, violations entry e.2 = [] := by
  cases v <;> simp [ofEntries]

theorem fieldViolations_eq_nil_iff {fields : List (String × Contract)} {members : Dict Value} :
    fieldViolations fields members = [] ↔
      ∀ f ∈ fields, ∀ w, Dict.get? members f.1 = some w → violations f.2 w = [] := by
  induction fields with
  | nil => simp [fieldViolations]
  | cons f fields ih =>
    obtain ⟨name, c⟩ := f
    rw [fieldViolations, List.append_eq_nil_iff, ih, List.forall_mem_cons]
    refine and_congr_left' ?_
    cases Dict.get? members name <;> simp

theorem fits_record {required : List String} {fields : List (String × Contract)} :
    violations (.record required fields) v = [] ↔
      ∃ members, v = .obj members ∧ (∀ k ∈ required, (Dict.get? members k).isSome = true) ∧
        ∀ f ∈ fields, ∀ w, Dict.get? members f.1 = some w → violations f.2 w = [] := by
  cases v with
  | obj members =>
    have none : ∀ {k}, (!Dict.contains members k) = true ↔ ¬(Dict.get? members k).isSome = true := by
      intro k
      rw [Dict.contains_eq_isSome_get?, Bool.not_eq_true', Bool.not_eq_true]
    simp only [violations, List.append_eq_nil_iff, fieldViolations_eq_nil_iff, List.map_eq_nil_iff,
      List.filter_eq_nil_iff, none, not_not, Value.obj.injEq, exists_eq_left']
    exact and_comm
  | _ => simp

end Contract

/-! ## Reading what keeps to a contract -/

open DataMigration.Tree

/-- Every value that keeps to the contract can be read. -/
def Contract.Suits {α : Type} (c : Contract) (read : Tree → Option α) : Prop :=
  ∀ v, c.violations v = [] → Reads read v

namespace Contract

theorem suits_text : Suits .text text? := by
  intro v fits
  obtain ⟨s, rfl⟩ := fits_text.1 fits
  exact reads_text s

theorem suits_filled : Suits .filled text? := by
  intro v fits
  obtain ⟨s, rfl, _⟩ := fits_filled.1 fits
  exact reads_text s

theorem suits_optionalText : Suits .optionalText (optional? text?) :=
  fun _ fits => reads_optionalText (fits_optionalText.1 fits)

theorem suits_flag : Suits .flag bool? := by
  intro v fits
  obtain ⟨b, rfl⟩ := fits_flag.1 fits
  exact reads_bool b

theorem suits_object : Suits .object object? := by
  intro v fits
  obtain ⟨members, rfl⟩ := fits_object.1 fits
  exact reads_dictOf fun e _ => reads_value e.2

/-- What keeps to the pattern of references can be split into a service and an entity. -/
theorem suits_reference : Suits .reference fun t => t.text?.bind EntityRef.ofText? := by
  intro v fits t given
  obtain ⟨s, rfl, pattern⟩ := fits_reference.1 fits
  beta_reduce
  rw [text?_of_value? given.holds, Option.bind_some]
  unfold isReference at pattern
  unfold EntityRef.ofText?
  split at pattern
  · rename_i service entity cut
    simp only [Bool.and_eq_true, bne_iff_ne, ne_eq] at pattern
    simp [cut, pattern.1.1, pattern.1.2]
  · cases pattern

variable {α : Type} {c : Contract} {read : Tree → Option α}

theorem suits_list (suits : c.Suits read) : Suits (.list c) (listOf? read) := by
  intro v fits
  obtain ⟨items, rfl, each⟩ := fits_list.1 fits
  exact reads_listOf fun w member => suits w (each w member)

theorem suits_objects (suits : c.Suits read) : Suits (.objects c) (dictOf? read) := by
  intro v fits
  obtain ⟨members, rfl, each⟩ := fits_objects.1 fits
  exact reads_dictOf fun e member => suits e.2 (each e member)

end Contract

/-- Only values that keep to the contract can be read. -/
def Contract.Covers {α : Type} (c : Contract) (read : Tree → Option α) : Prop :=
  ∀ v, (read (.value v)).isSome = true → c.violations v = []

namespace Contract

theorem covers_text : Covers .text text? := by
  intro v read
  cases v with
  | str s => rfl
  | _ => cases read

theorem covers_object : Covers .object object? := by
  intro v read
  cases v with
  | obj members => rfl
  | _ => cases read

theorem covers_objects {α : Type} {c : Contract} {read : Tree → Option α} (covers : c.Covers read) :
    Covers (.objects c) (dictOf? read) := by
  intro v all
  cases v with
  | obj members =>
    exact fits_objects.2 ⟨members, rfl, fun e member =>
      covers e.2 (isSome_dictOf?_value all e member)⟩
  | _ => cases all

end Contract

namespace Record

variable {α : Type} {r : Record} {name : String} {read : Tree → Option α} {o : Option Value}
  {c : Contract}

theorem exists_withDefault (default : α) (shown : Option.Rel Gives (r.part? name) o)
    (fits : ∀ v, o = some v → c.violations v = []) (suits : c.Suits read) :
    ∃ a, r.withDefault name default read = some a :=
  Option.isSome_iff_exists.1 (isSome_withDefault shown fun v held => suits v (fits v held))

theorem exists_required (shown : Option.Rel Gives (r.part? name) o) (present : o.isSome = true)
    (fits : ∀ v, o = some v → c.violations v = []) (suits : c.Suits read) :
    ∃ a, r.required name read = some a :=
  Option.isSome_iff_exists.1 (isSome_required shown present fun v held => suits v (fits v held))

/-- The parts of a record whose fields have one name each are the members of the object. -/
theorem exists_of_gives {names : List String} (apart : FieldName.Apart (fieldNames names))
    {members : Dict Value} {t : Tree} (given : t.Gives (.obj members)) :
    ∃ r, ofTree? (fieldNames names) t = some r ∧
      ∀ name ∈ names, Option.Rel Gives (r.part? name) (Dict.get? members name) := by
  have single : ∀ f ∈ fieldNames names, ∀ other ∈ f.alternative,
      Dict.get? members f.name = none ∨ Dict.get? members other = none := by
    intro f own other second
    obtain ⟨name, _, rfl⟩ := List.mem_map.1 own
    cases second
  obtain ⟨r, record⟩ := Option.isSome_iff_exists.1 ((isSome_ofTree?_iff given apart).2 single)
  refine ⟨r, record, fun name own => ?_⟩
  exact part?_of_gives_of_plain given apart record (f := ⟨name, none⟩)
    (List.mem_map_of_mem own) rfl

/-- A member of an object is what its field is read from. -/
theorem read_value {names : List String} (apart : FieldName.Apart (fieldNames names))
    {members : Dict Value} (record : ofTree? (fieldNames names) (.value (.obj members)) = some r)
    (own : name ∈ names) {default a : α} (given : r.withDefault name default read = some a)
    {v : Value} (held : Dict.get? members name = some v) : read (.value v) = some a := by
  have part := part?_value apart record (f := ⟨name, none⟩) (List.mem_map_of_mem own) rfl
  rw [held, Option.map_some] at part
  rwa [withDefault, part] at given

theorem fits_of_withDefault {names : List String} (apart : FieldName.Apart (fieldNames names))
    {members : Dict Value} (record : ofTree? (fieldNames names) (.value (.obj members)) = some r)
    (own : name ∈ names) {default a : α} (given : r.withDefault name default read = some a)
    (covers : c.Covers read) : ∀ v, Dict.get? members name = some v → c.violations v = [] :=
  fun v held =>
    covers v (Option.isSome_iff_exists.2 ⟨a, read_value apart record own given held⟩)

end Record

theorem Value.Canonical.member {members : Dict Value} (canonical : (Value.obj members).Canonical)
    {k : String} {v : Value} (held : Dict.get? members k = some v) : v.Canonical := by
  cases canonical with
  | obj _ inside => exact inside _ (Dict.mem_of_get? held)

open Contract Record

/-! ## Field mappings -/

namespace FieldMapping

variable {v : Value} {t : Tree}

/-- The default is given under one of its names only. -/
def DefaultOnce (v : Value) : Prop :=
  v.member? "default" = none ∨ v.member? "default_value" = none

theorem isSome_record_iff {members : Dict Value} (given : t.Gives (.obj members)) :
    (Record.ofTree? shape t).isSome = true ↔ DefaultOnce (.obj members) := by
  rw [isSome_ofTree?_iff given apart_shape]
  simp [shape, fieldNames, DefaultOnce, Value.member?]

theorem reads_ofTree? (fits : Contract.fieldMapping.violations v = []) (once : DefaultOnce v) :
    Reads ofTree? v := by
  intro t given
  obtain ⟨members, rfl, required, fields⟩ := fits_record.1 fits
  obtain ⟨r, record⟩ := Option.isSome_iff_exists.1 ((isSome_record_iff given).2 once)
  have shown : ∀ name, ⟨name, none⟩ ∈ shape →
      Option.Rel Gives (r.part? name) (Dict.get? members name) :=
    fun name own => part?_of_gives_of_plain given apart_shape record own rfl
  have transform : Suits .text fun t => t.text?.map Operator.ofName := by
    intro w text u holds
    rw [Option.isSome_map]
    exact suits_text w text u holds
  obtain ⟨source, hasSource⟩ := exists_withDefault none
    (shown "source_field" (by simp [shape, fieldNames]))
    (fields ("source_field", .optionalText) (by simp)) suits_optionalText
  obtain ⟨target, hasTarget⟩ := exists_required
    (shown "target_field" (by simp [shape, fieldNames])) (required _ (by simp))
    (fields ("target_field", .filled) (by simp)) suits_filled
  obtain ⟨operator, hasOperator⟩ := exists_withDefault .direct
    (shown "transform" (by simp [shape, fieldNames]))
    (fields ("transform", .text) (by simp)) transform
  obtain ⟨config, hasConfig⟩ := exists_withDefault []
    (shown "transform_config" (by simp [shape, fieldNames]))
    (fields ("transform_config", .object) (by simp)) suits_object
  obtain ⟨notes, hasNotes⟩ := exists_withDefault ""
    (shown "notes" (by simp [shape, fieldNames])) (fields ("notes", .text) (by simp)) suits_text
  obtain ⟨needed, hasNeeded⟩ := exists_withDefault false
    (shown "required" (by simp [shape, fieldNames]))
    (fields ("required", .flag) (by simp)) suits_flag
  -- The contract says nothing about defaults, and any value will do.
  have defaults := part?_of_gives given apart_shape record ⟨"default", some "default_value"⟩
    (by simp [shape, fieldNames])
  obtain ⟨default, hasDefault⟩ : ∃ d, r.optional "default" value? = some d :=
    Option.isSome_iff_exists.1
      (isSome_withDefault defaults fun w _ => reads_optional (reads_value w))
  obtain ⟨condition, hasCondition⟩ := exists_withDefault none
    (shown "condition" (by simp [shape, fieldNames]))
    (fields ("condition", .optionalText) (by simp)) suits_optionalText
  exact Option.isSome_iff_exists.2 ⟨⟨source, target, operator, config, notes, needed, default,
    condition⟩, ofTree?_eq_some_iff.2 ⟨r, record, hasSource, hasTarget, hasOperator, hasConfig,
      hasNotes, hasNeeded, hasDefault, hasCondition⟩⟩

theorem defaultOnce_of_isSome {members : Dict Value} (given : t.Gives (.obj members))
    (read : (ofTree? t).isSome = true) : DefaultOnce (.obj members) := by
  obtain ⟨m, read⟩ := Option.isSome_iff_exists.1 read
  obtain ⟨r, record, _⟩ := ofTree?_eq_some_iff.1 read
  exact (isSome_record_iff given).1 (Option.isSome_iff_exists.2 ⟨r, record⟩)

end FieldMapping

/-! ## Entity mappings -/

namespace EntityMapping

variable {v : Value}

/-- No field mapping gives its default under both names. -/
def DefaultsOnce (v : Value) : Prop :=
  ∀ items, v.member? "field_mappings" = some (.arr items) → ∀ w ∈ items, FieldMapping.DefaultOnce w

/-- What an entity mapping needs beyond its contract: a name that is a text. -/
def unchecked : Contract := .record [] [("name", .text)]

theorem reads_ofTree? (fits : Contract.entityMapping.violations v = [])
    (rest : unchecked.violations v = []) (once : DefaultsOnce v) : Reads ofTree? v := by
  intro t given
  obtain ⟨members, rfl, required, fields⟩ := fits_record.1 fits
  obtain ⟨_, same, _, more⟩ := fits_record.1 rest
  cases same
  obtain ⟨r, record, shown⟩ := exists_of_gives apart_fieldNames given
  obtain ⟨name, hasName⟩ := exists_withDefault "" (shown "name" (by simp [fieldNames]))
    (more ("name", .text) (by simp)) suits_text
  obtain ⟨source, hasSource⟩ := exists_required (shown "source" (by simp [fieldNames]))
    (required _ (by simp)) (fields ("source", .reference) (by simp)) suits_reference
  obtain ⟨target, hasTarget⟩ := exists_required (shown "target" (by simp [fieldNames]))
    (required _ (by simp)) (fields ("target", .reference) (by simp)) suits_reference
  obtain ⟨description, hasDescription⟩ := exists_withDefault ""
    (shown "description" (by simp [fieldNames])) (fields ("description", .text) (by simp)) suits_text
  have list : ∀ w, Dict.get? members "field_mappings" = some w →
      Reads (listOf? FieldMapping.ofTree?) w := by
    intro w held
    obtain ⟨items, rfl, each⟩ :=
      fits_list.1 (fields ("field_mappings", .list Contract.fieldMapping) (by simp) w held)
    exact reads_listOf fun u member =>
      FieldMapping.reads_ofTree? (each u member) (once items held u member)
  obtain ⟨mappings, hasMappings⟩ :
      ∃ l, r.withDefault "field_mappings" [] (listOf? FieldMapping.ofTree?) = some l :=
    Option.isSome_iff_exists.1
      (isSome_withDefault (shown "field_mappings" (by simp [fieldNames])) list)
  obtain ⟨dependencies, hasDependencies⟩ := exists_withDefault []
    (shown "dependencies" (by simp [fieldNames]))
    (fields ("dependencies", .list .text) (by simp)) (suits_list suits_text)
  obtain ⟨notes, hasNotes⟩ := exists_withDefault "" (shown "notes" (by simp [fieldNames]))
    (fields ("notes", .text) (by simp)) suits_text
  exact Option.isSome_iff_exists.2 ⟨⟨name, source, target, description, mappings, dependencies,
    notes⟩, ofTree?_eq_some_iff.2 ⟨r, record, hasName, hasSource, hasTarget, hasDescription,
      hasMappings, hasDependencies, hasNotes⟩⟩

/-- Values that can be read have what the contract leaves open. -/
theorem complete_of_isSome (canonical : v.Canonical)
    (fits : Contract.entityMapping.violations v = [])
    (read : (ofTree? (.value v)).isSome = true) :
    unchecked.violations v = [] ∧ DefaultsOnce v := by
  obtain ⟨members, rfl, _, fields⟩ := fits_record.1 fits
  obtain ⟨m, read⟩ := Option.isSome_iff_exists.1 read
  obtain ⟨r, record, name, _, _, _, mappings, _⟩ := ofTree?_eq_some_iff.1 read
  constructor
  · have text := fits_of_withDefault apart_fieldNames record (by simp [fieldNames]) name covers_text
    exact fits_record.2 ⟨members, rfl, List.forall_mem_nil _, List.forall_mem_singleton.2 text⟩
  · intro items held w member
    have list := read_value apart_fieldNames record (by simp [fieldNames]) mappings held
    obtain ⟨_, same, each⟩ :=
      fits_list.1 (fields ("field_mappings", .list Contract.fieldMapping) (by simp) _ held)
    cases same
    obtain ⟨inner, rfl, _⟩ := fits_record.1 (each w member)
    cases canonical.member held with
    | arr inside =>
      exact FieldMapping.defaultOnce_of_isSome (gives_value (inside _ member))
        (isSome_listOf?_value (Option.isSome_iff_exists.2 ⟨_, list⟩) _ member)

end EntityMapping

/-! ## Mappings -/

namespace Mapping

variable {v : Value}

/-- No field mapping gives its default under both names. -/
def DefaultsOnce (v : Value) : Prop :=
  ∀ entries, v.member? "mappings" = some (.obj entries) →
    ∀ e ∈ entries, EntityMapping.DefaultsOnce e.2

/-- What a mapping needs beyond its contract: the names of its entity mappings and its labels are
texts, and what it says of a function is an object. -/
def unchecked : Contract :=
  .record [] [("mappings", .objects EntityMapping.unchecked),
    ("status_mappings", .objects (.objects .text)), ("transform_functions", .objects .object)]

theorem reads_entriesOfTree? {members : Dict Value}
    (reads : ∀ e ∈ members, Reads EntityMapping.ofTree? e.2) :
    Reads entriesOfTree? (.obj members) := by
  intro t given
  obtain ⟨entries, inside, _⟩ := given.entries?_eq
  rw [entriesOfTree?, inside, Option.bind_some, isSome_mapM_iff]
  intro e member
  obtain ⟨w, among, own⟩ := given.exists_member inside e member
  rw [entryOfTree?, Option.isSome_map]
  exact reads _ among _ own

theorem isSome_entriesOfTree?_value {members : Dict Value}
    (all : (entriesOfTree? (.value (.obj members))).isSome = true) :
    ∀ e ∈ members, (EntityMapping.ofTree? (.value e.2)).isSome = true := by
  rw [entriesOfTree?, entries?, Option.bind_some, isSome_mapM_iff] at all
  intro e member
  have own := all _ (List.mem_map_of_mem member)
  rwa [entryOfTree?, Option.isSome_map] at own

theorem reads_ofTree? (fits : Contract.mapping.violations v = [])
    (rest : unchecked.violations v = []) (once : DefaultsOnce v) : Reads ofTree? v := by
  intro t given
  obtain ⟨members, rfl, required, fields⟩ := fits_record.1 fits
  obtain ⟨_, same, _, more⟩ := fits_record.1 rest
  cases same
  obtain ⟨r, record, shown⟩ := exists_of_gives apart_fieldNames given
  obtain ⟨name, hasName⟩ := exists_required (shown "name" (by simp [fieldNames]))
    (required _ (by simp)) (fields ("name", .filled) (by simp)) suits_filled
  obtain ⟨version, hasVersion⟩ := exists_withDefault "1.0" (shown "version" (by simp [fieldNames]))
    (fields ("version", .text) (by simp)) suits_text
  obtain ⟨description, hasDescription⟩ := exists_withDefault ""
    (shown "description" (by simp [fieldNames])) (fields ("description", .text) (by simp)) suits_text
  obtain ⟨services, hasServices⟩ := exists_withDefault []
    (shown "source_services" (by simp [fieldNames]))
    (fields ("source_services", .list .text) (by simp)) (suits_list suits_text)
  obtain ⟨target, hasTarget⟩ := exists_withDefault ""
    (shown "target_service" (by simp [fieldNames]))
    (fields ("target_service", .text) (by simp)) suits_text
  have entries : ∀ w, Dict.get? members "mappings" = some w → Reads entriesOfTree? w := by
    intro w held
    obtain ⟨inner, rfl, each⟩ :=
      fits_objects.1 (fields ("mappings", .objects Contract.entityMapping) (by simp) w held)
    obtain ⟨_, same, names⟩ :=
      fits_objects.1 (more ("mappings", .objects EntityMapping.unchecked) (by simp) _ held)
    cases same
    exact reads_entriesOfTree? fun e member =>
      EntityMapping.reads_ofTree? (each e member) (names e member) (once inner held e member)
  obtain ⟨entities, hasEntities⟩ : ∃ l, r.withDefault "mappings" [] entriesOfTree? = some l :=
    Option.isSome_iff_exists.1 (isSome_withDefault (shown "mappings" (by simp [fieldNames])) entries)
  obtain ⟨order, hasOrder⟩ := exists_withDefault []
    (shown "migration_order" (by simp [fieldNames]))
    (fields ("migration_order", .list .text) (by simp)) (suits_list suits_text)
  obtain ⟨functions, hasFunctions⟩ := exists_withDefault []
    (shown "transform_functions" (by simp [fieldNames]))
    (more ("transform_functions", .objects .object) (by simp)) (suits_objects suits_object)
  obtain ⟨labels, hasLabels⟩ := exists_withDefault []
    (shown "status_mappings" (by simp [fieldNames]))
    (more ("status_mappings", .objects (.objects .text)) (by simp))
    (suits_objects (suits_objects suits_text))
  exact Option.isSome_iff_exists.2 ⟨⟨name, version, description, services, target, entities, order,
    functions, labels⟩, ofTree?_eq_some_iff.2 ⟨r, record, hasName, hasVersion, hasDescription,
      hasServices, hasTarget, hasEntities, hasOrder, hasFunctions, hasLabels⟩⟩

theorem complete_of_isSome (canonical : v.Canonical) (fits : Contract.mapping.violations v = [])
    (read : (ofTree? (.value v)).isSome = true) :
    unchecked.violations v = [] ∧ DefaultsOnce v := by
  obtain ⟨members, rfl, _, fields⟩ := fits_record.1 fits
  obtain ⟨m, read⟩ := Option.isSome_iff_exists.1 read
  obtain ⟨r, record, _, _, _, _, _, entities, _, functions, labels⟩ := ofTree?_eq_some_iff.1 read
  have entry : ∀ entries, Dict.get? members "mappings" = some (.obj entries) → ∀ e ∈ entries,
      EntityMapping.unchecked.violations e.2 = [] ∧ EntityMapping.DefaultsOnce e.2 := by
    intro entries held e member
    obtain ⟨_, same, each⟩ :=
      fits_objects.1 (fields ("mappings", .objects Contract.entityMapping) (by simp) _ held)
    cases same
    have all := read_value apart_fieldNames record (by simp [fieldNames]) entities held
    have own := isSome_entriesOfTree?_value (Option.isSome_iff_exists.2 ⟨_, all⟩) e member
    cases canonical.member held with
    | obj _ inside =>
      exact EntityMapping.complete_of_isSome (inside e member) (each e member) own
  have tables := fits_of_withDefault apart_fieldNames record (by simp [fieldNames]) labels
    (covers_objects (covers_objects covers_text))
  have settings := fits_of_withDefault apart_fieldNames record (by simp [fieldNames]) functions
    (covers_objects covers_object)
  have named : ∀ w, Dict.get? members "mappings" = some w →
      (Contract.objects EntityMapping.unchecked).violations w = [] := by
    intro w held
    obtain ⟨entries, rfl, _⟩ :=
      fits_objects.1 (fields ("mappings", .objects Contract.entityMapping) (by simp) w held)
    exact fits_objects.2 ⟨entries, rfl, fun e member => (entry entries held e member).1⟩
  refine ⟨fits_record.2 ⟨members, rfl, List.forall_mem_nil _, ?_⟩,
    fun entries held e member => (entry entries held e member).2⟩
  simp only [List.forall_mem_cons]
  exact ⟨named, tables, settings, List.forall_mem_nil _⟩

/-- A value that keeps to the contract can be read as a mapping exactly if it also has what the
contract leaves open and no default twice; every document with that value is then accepted. -/
theorem accepted_reads_iff (canonical : v.Canonical) (accepted : Contract.mapping.violations v = []) :
    ((ofTree? (.value v)).isSome = true ↔ unchecked.violations v = [] ∧ DefaultsOnce v) ∧
      (unchecked.violations v = [] ∧ DefaultsOnce v → ∀ (text : String) (t : Tree),
        Yaml.read? text = some t → t.Once → t.value? = some v → ∃ m, ofDocument text = .ok m) := by
  refine ⟨⟨complete_of_isSome canonical accepted, fun complete => ?_⟩,
    fun complete text t read once holds => ?_⟩
  · exact reads_ofTree? accepted complete.1 complete.2 _ (gives_value canonical)
  · obtain ⟨m, decoded⟩ := Option.isSome_iff_exists.1
      (reads_ofTree? accepted complete.1 complete.2 t ⟨once, holds⟩)
    refine ⟨m, ?_⟩
    rw [ofDocument, read]
    simp only [ofCheckedTree?, holds, accepted, decoded]

/-- The document of a mapping of users to contacts with settings for the function `scale`. -/
def tierDocument (settings : Value) : Value :=
  .obj [
    ("mappings", .obj [("users", .obj [
      ("field_mappings", .arr [.obj [("default_value", .null), ("target_field", .str "tier")]]),
      ("name", .str "people"), ("source", .str "shop.user"), ("target", .str "crm.contact")])]),
    ("name", .str "tiers"),
    ("status_mappings", .obj [("tiers", .obj [("2", .str "gold")])]),
    ("transform_functions", .obj [("scale", settings)])]

theorem defaultsOnce_tierDocument (settings : Value) : DefaultsOnce (tierDocument settings) := by
  intro entries held e member items given w among
  cases held
  obtain rfl := List.mem_singleton.1 member
  cases given
  obtain rfl := List.mem_singleton.1 among
  exact .inl rfl

theorem tierDocument_readable :
    (tierDocument (.obj [])).Canonical ∧
      Contract.mapping.violations (tierDocument (.obj [])) = [] ∧
      (ofTree? (.value (tierDocument (.obj [])))).isSome = true := by
  have canonical : (tierDocument (.obj [])).Canonical := by decide
  exact ⟨canonical, by rfl,
    (accepted_reads_iff canonical (by rfl)).1.2 ⟨by rfl, defaultsOnce_tierDocument _⟩⟩

/-- Settings of a function that are a number keep to the contract, but they cannot be read, and the
document is refused without a violation. -/
theorem tierDocument_unreadable :
    (tierDocument (.nat 1)).Canonical ∧
      Contract.mapping.violations (tierDocument (.nat 1)) = [] ∧
      DefaultsOnce (tierDocument (.nat 1)) ∧ ofTree? (.value (tierDocument (.nat 1))) = none ∧
      ofCheckedTree? (.value (tierDocument (.nat 1))) = .error .parse :=
  ⟨by decide, by rfl, defaultsOnce_tierDocument _, by rfl, by rfl⟩

end Mapping

end DataMigration
