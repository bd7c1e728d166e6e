import DataMigration.Proofs.Mapping.RoundTrip
import DataMigration.Proofs.Yaml.Leaves
import DataMigration.Proofs.Yaml.Reproduced

/-!
# Written mappings and the contract

A mapping that is written keeps to the contract if the entity mappings that it shows, the last under
each name, conform to it. Reading ensures that of the entity mappings that the contract has seen;
of two with one key it sees the last, and both are kept.
-/

namespace DataMigration

namespace Contract

variable {c : Contract}

theorem fits_record_normal {fields : List (String × Value)} (once : (Dict.keys fields).Nodup)
    {required : List String} {parts : List (String × Contract)} :
    violations (.record required parts) (Value.obj fields).normal = [] ↔
      (∀ k ∈ required, (Dict.get? fields k).isSome = true) ∧
        ∀ p ∈ parts, ∀ w, Dict.get? fields p.1 = some w → violations p.2 w.normal = [] := by
  have keys : Dict.keys (Dict.mapValues Value.normal fields) = Dict.keys fields := by
    simp [Dict.keys, Dict.mapValues]
  have found : ∀ k, Dict.get? (Dict.ofEntries (Value.normalFields fields)) k =
      (Dict.get? fields k).map Value.normal := by
    intro k
    rw [Value.normalFields_eq, Dict.get?_ofEntries (keys ▸ once), Dict.get?_mapValues]
  rw [fits_record, Value.normal]
  simp only [Value.obj.injEq, exists_eq_left', found, Option.isSome_map, Option.map_eq_some_iff,
    forall_exists_index, and_imp, forall_apply_eq_imp_iff₂]

theorem fits_list_normal {vs : List Value} :
    violations (.list c) (Value.arr vs).normal = [] ↔ ∀ w ∈ vs, violations c w.normal = [] := by
  rw [fits_list, Value.normal, Value.normalItems_eq]
  simp

theorem fits_texts (xs : List String) : violations (.list .text) (Value.texts xs).normal = [] := by
  refine fits_list_normal.2 fun w member => ?_
  obtain ⟨s, _, rfl⟩ := List.mem_map.1 member
  rfl

theorem fits_objects_normal {fields : List (String × Value)} :
    violations (.objects c) (Value.obj fields).normal = [] ↔
      ∀ k v, (∃ before after, fields = before ++ (k, v) :: after ∧ ∀ f ∈ after, f.1 ≠ k) →
        violations c v.normal = [] := by
  rw [fits_objects, Value.normal, Value.normalFields_eq]
  simp only [Value.obj.injEq, exists_eq_left', Dict.mem_ofEntries_iff, Dict.mapValues]
  constructor
  · rintro fits k v ⟨before, after, rfl, last⟩
    refine fits (k, v.normal) ⟨_, _, List.map_append, fun e member => ?_⟩
    obtain ⟨f, among, rfl⟩ := List.mem_map.1 member
    exact last f among
  · rintro fits e ⟨before, after, whole, last⟩
    obtain ⟨before, rest, rfl, rfl, tail⟩ := List.map_eq_append_iff.1 whole
    obtain ⟨f, after, rfl, rfl, rfl⟩ := List.map_eq_cons_iff.1 tail
    have later : ∀ g ∈ after, g.1 ≠ f.1 := fun g member =>
      last (g.1, g.2.normal) (List.mem_map.2 ⟨g, member, rfl⟩)
    exact fits f.1 f.2 ⟨before, after, rfl, later⟩

end Contract

namespace FieldMapping

/-- A written field mapping keeps to the contract if it has a target. -/
theorem fits_toValue_iff (m : FieldMapping) :
    Contract.fieldMapping.violations m.toValue.normal = [] ↔ m.target ≠ "" := by
  obtain ⟨source, target, operator, config, notes, required, _, condition⟩ := m.get?_written
  rw [toValue_eq, Contract.fieldMapping, Contract.fits_record_normal m.nodup_written]
  simp only [List.forall_mem_cons, source, target, operator, config, notes, required, condition]
  constructor
  · rintro ⟨_, _, _, _, _, filled, _⟩ empty
    have broken := filled _ rfl
    rw [empty] at broken
    cases broken
  · intro filled
    refine ⟨⟨rfl, List.forall_mem_nil _⟩, ?_, ?_, ?_, ?_, ?_, ?_, ?_, List.forall_mem_nil _⟩
    · intro w given
      obtain ⟨s, _, rfl⟩ := Option.map_eq_some_iff.1 given
      rfl
    · intro w given
      split at given
      · cases given
      · cases given; rfl
    · intro w given
      split at given
      · cases given; rfl
      · cases given
    · rintro w ⟨⟩
      cases m.source <;> rfl
    · rintro w ⟨⟩
      exact Contract.fits_filled.2 ⟨m.target, rfl, filled⟩
    · rintro w ⟨⟩
      rfl
    · intro w given
      split at given
      · cases given
      · cases given; rfl

end FieldMapping

namespace EntityMapping

/-- What the contract asks of a written entity mapping: entities without breaks and field mappings
with targets. -/
structure Conforms (m : EntityMapping) : Prop where
  source : '\n' ∉ m.source.entity.toList
  target : '\n' ∉ m.target.entity.toList
  fields : ∀ f ∈ m.fields, f.target ≠ ""

theorem fits_toValue_iff {m : EntityMapping} (stable : m.Stable) :
    Contract.entityMapping.violations m.toValue.normal = [] ↔ m.Conforms := by
  have fields : Contract.violations (.list Contract.fieldMapping)
      (Value.arr (m.fields.map FieldMapping.toValue)).normal = [] ↔ ∀ f ∈ m.fields, f.target ≠ "" := by
    rw [Contract.fits_list_normal, List.forall_mem_map]
    exact forall₂_congr fun f _ => f.fits_toValue_iff
  have source : Contract.violations .reference (Value.str m.source.text) = [] ↔
      '\n' ∉ m.source.entity.toList := by
    rw [Contract.fits_reference, ← EntityRef.isReference_iff stable.source]
    simp
  have target : Contract.violations .reference (Value.str m.target.text) = [] ↔
      '\n' ∉ m.target.entity.toList := by
    rw [Contract.fits_reference, ← EntityRef.isReference_iff stable.target]
    simp
  obtain ⟨hasSource, hasTarget, hasDescription, hasFields, hasDependencies, hasNotes⟩ :=
    m.get?_written
  rw [toValue_eq, Contract.entityMapping, Contract.fits_record_normal m.nodup_written]
  simp only [List.forall_mem_cons, hasSource, hasTarget, hasDescription, hasFields,
    hasDependencies, hasNotes, Option.isSome_some, Option.some.injEq, forall_eq']
  constructor
  · rintro ⟨_, _, _, list, _, ownSource, ownTarget, _⟩
    exact ⟨source.1 ownSource, target.1 ownTarget, fields.1 list⟩
  · rintro ⟨ownSource, ownTarget, list⟩
    exact ⟨⟨trivial, trivial, List.forall_mem_nil _⟩, Contract.fits_texts _, rfl, fields.2 list, rfl,
      source.2 ownSource, target.2 ownTarget, List.forall_mem_nil _⟩

end EntityMapping

namespace Mapping

/-- An entity mapping of which no later one has the name. -/
def Shows (m : Mapping) (e : EntityMapping) : Prop :=
  ∃ before after, m.entities = before ++ e :: after ∧ ∀ e' ∈ after, e'.name ≠ e.name

theorem fits_toValue_iff {m : Mapping} (stable : m.Stable) :
    Contract.mapping.violations m.toValue.normal = [] ↔
      m.name ≠ "" ∧ ∀ e, m.Shows e → e.Conforms := by
  have entities : Contract.violations (.objects Contract.entityMapping)
      (Value.obj (m.entities.map fun e => (e.name, e.toValue))).normal = [] ↔
        ∀ e, m.Shows e → e.Conforms := by
    rw [Contract.fits_objects_normal]
    constructor
    · rintro fits e ⟨before, after, whole, last⟩
      have own : e.Stable := stable.entities e (by rw [whole]; simp)
      have later : ∀ f ∈ after.map fun e => (e.name, e.toValue), f.1 ≠ e.name :=
        List.forall_mem_map.2 last
      refine (EntityMapping.fits_toValue_iff own).1 (fits e.name e.toValue
        ⟨before.map fun e => (e.name, e.toValue), _, ?_, later⟩)
      rw [whole, List.map_append, List.map_cons]
    · rintro conform k v ⟨before, after, whole, last⟩
      obtain ⟨before, rest, split, rfl, tail⟩ := List.map_eq_append_iff.1 whole
      obtain ⟨e, after, rfl, same, rfl⟩ := List.map_eq_cons_iff.1 tail
      cases same
      have own : e.Stable := stable.entities e (by rw [split]; simp)
      have later : ∀ e' ∈ after, e'.name ≠ e.name := fun e' member =>
        last (e'.name, e'.toValue) (List.mem_map.2 ⟨e', member, rfl⟩)
      exact (EntityMapping.fits_toValue_iff own).2 (conform e ⟨before, after, split, later⟩)
  have tables : Contract.violations (.objects .object)
      (Value.ofDict (Value.ofDict Value.str) m.labels).normal = [] := by
    refine Contract.fits_objects_normal.2 fun k v => ?_
    rintro ⟨before, after, whole, _⟩
    have member : (k, v) ∈ Dict.mapValues (Value.ofDict Value.str) m.labels := by
      rw [whole]
      exact List.mem_append_right _ List.mem_cons_self
    obtain ⟨table, _, same⟩ := List.mem_map.1 member
    cases same
    rfl
  have named : Contract.violations .filled (Value.str m.name).normal = [] ↔ m.name ≠ "" := by
    rw [Value.normal, Contract.fits_filled]
    · simp
    · nofun
    · nofun
  obtain ⟨hasName, hasVersion, hasDescription, hasServices, hasTarget, hasEntities, hasOrder,
    hasFunctions, hasLabels⟩ := m.get?_written
  rw [toValue_eq, Contract.mapping, Contract.fits_record_normal m.nodup_written]
  simp only [List.forall_mem_cons, hasName, hasVersion, hasDescription, hasServices, hasTarget,
    hasEntities, hasOrder, hasFunctions, hasLabels, Option.isSome_some, Option.some.injEq,
    forall_eq']
  constructor
  · rintro ⟨_, _, all, _, name, _⟩
    exact ⟨named.1 name, entities.1 all⟩
  · rintro ⟨name, conform⟩
    exact ⟨⟨trivial, trivial, List.forall_mem_nil _⟩, rfl, entities.2 conform, Contract.fits_texts _,
      named.2 name, Contract.fits_texts _, tables, rfl, rfl, rfl, List.forall_mem_nil _⟩

end Mapping

/-! ## What a check before the reading ensures -/

open DataMigration.Tree

/-- What is read from a document whose value keeps to the contract satisfies `Q`. -/
def Contract.Ensures {α : Type} (c : Contract) (read : Tree → Option α) (Q : α → Prop) : Prop :=
  ∀ (t : Tree) (v : Value), t.value? = some v → c.violations v = [] → ∀ a, read t = some a → Q a

namespace Contract

theorem ensures_filled : Ensures .filled text? fun s => s ≠ "" := by
  intro t v holds fits s read
  obtain ⟨_, rfl, filled⟩ := fits_filled.1 fits
  obtain rfl := Option.some.inj ((text?_of_value? holds).symm.trans read)
  exact filled

theorem ensures_reference :
    Ensures .reference (fun t => t.text?.bind EntityRef.ofText?) fun r => '\n' ∉ r.entity.toList := by
  intro t v holds fits r read
  obtain ⟨s, rfl, pattern⟩ := fits_reference.1 fits
  beta_reduce at read
  rw [text?_of_value? holds, Option.bind_some] at read
  exact (EntityRef.isReference_iff read).1 pattern

variable {α : Type} {c : Contract} {read : Tree → Option α} {Q : α → Prop}

theorem ensures_list (ensures : c.Ensures read Q) :
    Ensures (.list c) (listOf? read) fun xs => ∀ x ∈ xs, Q x := by
  intro t v holds fits xs given x member
  obtain ⟨ws, rfl, each⟩ := fits_list.1 fits
  obtain ⟨ts, inside, all⟩ := Option.bind_eq_some_iff.1 given
  obtain ⟨u, among, own⟩ := exists_of_mem_mapM all member
  obtain ⟨w, held, value⟩ := exists_value_of_mem_list? holds inside among
  exact ensures u w value (each w held) x own

end Contract

namespace Record

variable {α : Type} {shape : List FieldName} {t : Tree} {r : Record} {members : Dict Value}
  {name : String} {c : Contract} {read : Tree → Option α} {Q : α → Prop} {a : α}

theorem ensured_withDefault (apart : FieldName.Apart shape) (record : ofTree? shape t = some r)
    (holds : t.value? = some (.obj members)) (own : ⟨name, none⟩ ∈ shape)
    (fits : ∀ w, Dict.get? members name = some w → c.violations w = [])
    (ensures : c.Ensures read Q) {default : α} (missing : Q default)
    (given : r.withDefault name default read = some a) : Q a := by
  unfold withDefault at given
  split at given
  · cases given
    exact missing
  · rename_i u part
    obtain ⟨w, held, value⟩ := get?_of_part? apart record holds own rfl part
    exact ensures u w value (fits w held) a given

theorem ensured_required (apart : FieldName.Apart shape) (record : ofTree? shape t = some r)
    (holds : t.value? = some (.obj members)) (own : ⟨name, none⟩ ∈ shape)
    (fits : ∀ w, Dict.get? members name = some w → c.violations w = [])
    (ensures : c.Ensures read Q) (given : r.required name read = some a) : Q a := by
  obtain ⟨u, part, own'⟩ := Option.bind_eq_some_iff.1 given
  obtain ⟨w, held, value⟩ := get?_of_part? apart record holds own rfl part
  exact ensures u w value (fits w held) a own'

end Record

theorem FieldMapping.ensures_target :
    Contract.fieldMapping.Ensures ofTree? fun m => m.target ≠ "" := by
  intro t v holds fits m read
  obtain ⟨members, rfl, _, fields⟩ := Contract.fits_record.1 fits
  obtain ⟨r, record, _, target, _⟩ := ofTree?_eq_some_iff.1 read
  exact Record.ensured_required (a := m.target) apart_shape record holds (by simp [shape, fieldNames])
    (fields ("target_field", .filled) (by simp)) Contract.ensures_filled target

theorem EntityMapping.ensures_conforms : Contract.entityMapping.Ensures ofTree? Conforms := by
  intro t v holds fits m read
  obtain ⟨members, rfl, _, parts⟩ := Contract.fits_record.1 fits
  obtain ⟨r, record, _, source, target, _, fields, _⟩ := ofTree?_eq_some_iff.1 read
  have own : ∀ name ∈ fieldNames, ⟨name, none⟩ ∈ DataMigration.fieldNames fieldNames :=
    fun name among => List.mem_map_of_mem among
  constructor
  · exact Record.ensured_required (a := m.source) apart_fieldNames record holds
      (own "source" (by simp [fieldNames]))
      (parts ("source", .reference) (by simp)) Contract.ensures_reference source
  · exact Record.ensured_required (a := m.target) apart_fieldNames record holds
      (own "target" (by simp [fieldNames]))
      (parts ("target", .reference) (by simp)) Contract.ensures_reference target
  · exact Record.ensured_withDefault (a := m.fields) apart_fieldNames record holds
      (own "field_mappings" (by simp [fieldNames]))
      (parts ("field_mappings", .list Contract.fieldMapping) (by simp))
      (Contract.ensures_list FieldMapping.ensures_target) (List.forall_mem_nil _) fields

theorem FieldMapping.default_ne_null_of_definite {t : Tree} (leaves : t.Leaves IsDefinite)
    {m : FieldMapping} (read : ofTree? t = some m) : m.default ≠ some .null := by
  obtain ⟨r, record, _, _, _, _, _, _, default, _⟩ := ofTree?_eq_some_iff.1 read
  intro null
  rw [null] at default
  obtain ⟨u, own, present, read⟩ := Record.exists_of_optional leaves record default
  exact present (own.definite read)

theorem EntityMapping.defaultsPresent_of_definite {t : Tree} (leaves : t.Leaves IsDefinite)
    {m : EntityMapping} (read : ofTree? t = some m) : ∀ f ∈ m.fields, f.default ≠ some .null := by
  obtain ⟨r, record, _, _, _, _, fields, _⟩ := ofTree?_eq_some_iff.1 read
  intro f member
  obtain none | ⟨u, _, own, list⟩ := Record.exists_of_withDefault leaves record fields
  · rw [none] at member
    cases member
  · obtain ⟨w, leaf, given⟩ := listOf?_eq_some own list f member
    exact FieldMapping.default_ne_null_of_definite leaf given

namespace Mapping

variable {t : Tree} {v : Value} {m : Mapping}

theorem name_ne_of_fits (holds : t.value? = some v) (fits : Contract.mapping.violations v = [])
    (read : ofTree? t = some m) : m.name ≠ "" := by
  obtain ⟨members, rfl, _, fields⟩ := Contract.fits_record.1 fits
  obtain ⟨r, record, name, _⟩ := ofTree?_eq_some_iff.1 read
  exact Record.ensured_required (a := m.name) apart_fieldNames record holds
    (List.mem_map_of_mem (by simp [fieldNames])) (fields ("name", .filled) (by simp))
    Contract.ensures_filled name

/-- Every entity mapping of a document that gives its keys once has been checked. -/
theorem conforms_of_once (once : t.Once) (holds : t.value? = some v)
    (fits : Contract.mapping.violations v = []) (read : ofTree? t = some m) :
    ∀ e ∈ m.entities, e.Conforms := by
  obtain ⟨members, rfl, _, fields⟩ := Contract.fits_record.1 fits
  obtain ⟨r, record, _, _, _, _, _, entities, _⟩ := ofTree?_eq_some_iff.1 read
  have shown := Record.part?_of_gives_of_plain ⟨once, holds⟩ apart_fieldNames record
    (f := ⟨"mappings", none⟩) (List.mem_map_of_mem (by simp [fieldNames])) rfl
  intro e member
  unfold Record.withDefault at entities
  split at entities
  · rw [← Option.some.inj entities] at member
    cases member
  · rename_i u part
    rw [part] at shown
    generalize held : Dict.get? members "mappings" = o at shown
    cases shown with
    | @some _ w given =>
      obtain ⟨inner, rfl, each⟩ :=
        Contract.fits_objects.1 (fields ("mappings", .objects Contract.entityMapping) (by simp) w held)
      obtain ⟨entries, inside, all⟩ := Option.bind_eq_some_iff.1 entities
      obtain ⟨entry, among, own⟩ := exists_of_mem_mapM all member
      obtain ⟨bare, read, rfl⟩ := Option.map_eq_some_iff.1 own
      obtain ⟨w, pair, gives⟩ := given.exists_member inside entry among
      obtain ⟨source, target, filled⟩ :=
        EntityMapping.ensures_conforms _ w gives.holds (each _ pair) bare read
      exact ⟨source, target, filled⟩

theorem ofDocument_eq_ok_iff {text : String} {t : Tree} (read : Yaml.read? text = some t) {v : Value}
    (holds : t.value? = some v) :
    ofDocument text = .ok m ↔ Contract.mapping.violations v = [] ∧ ofTree? t = some m := by
  rw [ofDocument, read]
  simp only [ofCheckedTree?, holds]
  split
  · rename_i kept
    rw [kept]
    cases ofTree? t <;> simp
  · rename_i broken
    exact iff_of_false (by simp) fun both => broken both.1

theorem exists_of_ofDocument {text : String} (accepted : ofDocument text = .ok m) :
    ∃ t v, Yaml.read? text = some t ∧ t.value? = some v ∧ Contract.mapping.violations v = [] ∧
      ofTree? t = some m := by
  cases read : Yaml.read? text with
  | none => simp [ofDocument, read] at accepted
  | some t =>
    cases holds : t.value? with
    | none => simp [ofDocument, read, ofCheckedTree?, holds] at accepted
    | some v => exact ⟨t, v, rfl, holds, (ofDocument_eq_ok_iff read holds).1 accepted⟩

/-- A text that reproduces a stable mapping with a name is accepted if what it shows conforms, and
then gives the mapping up to defaults of null. -/
theorem ofDocument_reproduced_iff (stable : m.Stable) (named : m.name ≠ "") {text : String}
    (reproduces : Yaml.Reproduces text m.toValue) :
    ofDocument text = .ok m ↔ m.DefaultsPresent ∧ ∀ e, m.Shows e → e.Conforms := by
  obtain ⟨t, read, shown⟩ := reproduces
  rw [ofDocument_eq_ok_iff read (value?_of_shows shown), fits_toValue_iff stable,
    restores_toValue stable t shown, Option.some.injEq, reread_eq_iff]
  exact ⟨fun both => ⟨both.2, both.1.2⟩, fun both => ⟨⟨named, both.2⟩, both.1⟩⟩

/-- Defaults of a document in which only null is null are not null. -/
theorem defaultsPresent_of_definite {t : Tree} (leaves : t.Leaves IsDefinite)
    (read : ofTree? t = some m) : m.DefaultsPresent := by
  obtain ⟨r, record, _, _, _, _, _, entities, _⟩ := ofTree?_eq_some_iff.1 read
  intro e member f among
  obtain none | ⟨u, _, own, given⟩ := Record.exists_of_withDefault leaves record entities
  · rw [none] at member
    cases member
  · obtain ⟨w, leaf, bare, name, read, rfl⟩ := exists_of_entriesOfTree? own given member
    exact EntityMapping.defaultsPresent_of_definite leaf read f among

/-- Whatever reproduces an accepted mapping is accepted and gives the same mapping exactly if no
default is null and the entity mappings that it shows conform to the contract. A document in which
only null is null gives no default of null; if it has each key once, all entity mappings conform. -/
theorem accepted_reread_iff {text : String} (accepted : ofDocument text = .ok m) :
    (∀ w ∈ [m.toYaml, Json.pretty m.toValue], Yaml.Reproduces w m.toValue →
      (ofDocument w = .ok m ↔ m.DefaultsPresent ∧ ∀ e, m.Shows e → e.Conforms)) ∧
    ∀ t, Yaml.read? text = some t → (t.Leaves IsDefinite → m.DefaultsPresent) ∧
      (t.Once → ∀ e ∈ m.entities, e.Conforms) := by
  obtain ⟨t, v, read, holds, fits, decoded⟩ := exists_of_ofDocument accepted
  refine ⟨fun w _ reproduces => ?_, fun t' same => ?_⟩
  · exact ofDocument_reproduced_iff (stable_of_ofTree? (Yaml.leaves_read? read) decoded)
      (name_ne_of_fits holds fits decoded) reproduces
  · obtain rfl := Option.some.inj (read.symm.trans same)
    exact ⟨fun leaves => defaultsPresent_of_definite leaves decoded,
      fun once => conforms_of_once once holds fits decoded⟩

/-- A document with two entity mappings under one key, of which the first has a name of its own and
fills one field. -/
def repeatedDocument (target : String) : String :=
  let ends : List (String × Value) := [("source", .str "s.a"), ("target", .str "t.b")]
  Json.compact (.obj [("name", .str "m"), ("mappings", .obj [
    ("k", .obj (ends ++ [("name", .str "n"),
      ("field_mappings", .arr [.obj [("target_field", .str target)]])])),
    ("k", .obj ends)])])

/-- The mapping of the document. -/
def repeatedMapping (target : String) : Mapping :=
  { name := "m"
    entities := [{ name := "n", source := ⟨"s", "a"⟩, target := ⟨"t", "b"⟩, fields := [{ target }] },
      { name := "k", source := ⟨"s", "a"⟩, target := ⟨"t", "b"⟩ }] }

theorem ofDocument_ofList_eq_ok {cs : List Char}
    (same : ((Yaml.readChars? cs).bind fun t => (ofCheckedTree? t).toOption) = some m) :
    ofDocument (String.ofList cs) = .ok m := by
  obtain ⟨t, read, given⟩ := Option.bind_eq_some_iff.1 same
  rw [ofDocument, Yaml.read?_ofList, read]
  dsimp only
  cases checked : ofCheckedTree? t with
  | error e => rw [checked] at given; cases given
  | ok m => rw [checked] at given; cases given; rfl

theorem conforms_repeatedMapping {target : String} (filled : target ≠ "") :
    ∀ e ∈ (repeatedMapping target).entities, e.Conforms := by
  have ends : '\n' ∉ "a".toList ∧ '\n' ∉ "b".toList := by decide
  simp only [repeatedMapping, List.forall_mem_cons]
  refine ⟨⟨ends.1, ends.2, ?_⟩, ⟨ends.1, ends.2, List.forall_mem_nil _⟩, List.forall_mem_nil _⟩
  exact List.forall_mem_singleton.2 filled

theorem repeatedDocument_restored :
    ofDocument (repeatedDocument "f") = .ok (repeatedMapping "f") ∧
      ofDocument (repeatedMapping "f").toYaml = .ok (repeatedMapping "f") ∧
      ofDocument (Json.pretty (repeatedMapping "f").toValue) = .ok (repeatedMapping "f") := by
  have accepted : ofDocument (repeatedDocument "f") = .ok (repeatedMapping "f") :=
    ofDocument_ofList_eq_ok (by decide +kernel)
  have conform : (repeatedMapping "f").DefaultsPresent ∧
      ∀ e, (repeatedMapping "f").Shows e → e.Conforms := by
    refine ⟨by simp [DefaultsPresent, repeatedMapping], fun e shows => ?_⟩
    obtain ⟨before, after, whole, _⟩ := shows
    have among : e ∈ (repeatedMapping "f").entities := by simp [whole]
    exact conforms_repeatedMapping (by decide : "f" ≠ "") e among
  have yaml : Yaml.Reproduces (repeatedMapping "f").toYaml (repeatedMapping "f").toValue :=
    Yaml.reproduces_ofList_iff.2 (by decide +kernel)
  have json : Yaml.Reproduces (Json.pretty (repeatedMapping "f").toValue)
      (repeatedMapping "f").toValue := Yaml.reproduces_ofList_iff.2 (by decide +kernel)
  have restored := (accepted_reread_iff accepted).1
  exact ⟨accepted, (restored _ List.mem_cons_self yaml).2 conform,
    (restored _ (List.mem_cons_of_mem _ List.mem_cons_self) json).2 conform⟩

/-- The first of two entity mappings with one key is accepted without a target, and refused when it
is written under its own name. -/
theorem repeatedDocument_not_restored :
    ofDocument (repeatedDocument "") = .ok (repeatedMapping "") ∧
      Yaml.Reproduces (Json.pretty (repeatedMapping "").toValue) (repeatedMapping "").toValue ∧
      ofDocument (Json.pretty (repeatedMapping "").toValue) ≠ .ok (repeatedMapping "") := by
  have reproduces : Yaml.Reproduces (Json.pretty (repeatedMapping "").toValue)
      (repeatedMapping "").toValue := Yaml.reproduces_ofList_iff.2 (by decide +kernel)
  refine ⟨ofDocument_ofList_eq_ok (by decide +kernel), reproduces, fun restored => ?_⟩
  obtain ⟨t, v, read, holds, fits, _⟩ := exists_of_ofDocument restored
  obtain ⟨t', read', shown⟩ := reproduces
  obtain rfl := Option.some.inj (read'.symm.trans read)
  obtain rfl := Option.some.inj ((value?_of_shows shown).symm.trans holds)
  have broken : Contract.mapping.violations (repeatedMapping "").toValue.normal ≠ [] := by
    decide +kernel
  exact broken fits

end Mapping

end DataMigration
