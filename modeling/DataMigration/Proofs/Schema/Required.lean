import DataMigration.Proofs.Document.Canonical
import DataMigration.Proofs.Schema.Inference
import Mathlib.Algebra.Order.BigOperators.Group.List
import Mathlib.Algebra.Order.Group.Nat
import Mathlib.Data.Finset.Card

/-!
# Required fields

A field is inferred as required when as many values are observed at its path as there are samples.
Keys may have dots in them and may be empty, so one path can be made from several ways through one
sample, and then the sample counts more than once. A required field has a value in every sample if
and only if no sample counts more than once.
-/

namespace DataMigration

theorem Value.Canonical.once {v : Value} (canonical : v.Canonical) : v.Once := by
  induction canonical with
  | null => exact .null
  | bool b => exact .bool b
  | num n => exact .num n
  | str s => exact .str s
  | arr _ inside => exact .arr inside
  | obj sorted _ inside => exact .obj sorted.nodup_keys inside

namespace Infer

variable {path : String} {samples : List Value} {v w : Value} {keys : List String}

/-! ## Paths and the keys that they are made from -/

theorem prefix_fieldPath (above key : String) : above.toList <+: (fieldPath above key).toList := by
  unfold fieldPath
  split
  · rename_i root
    rw [root]
    exact List.nil_prefix
  · rw [String.append_assoc, String.toList_append]
    exact List.prefix_append _ _

theorem suffix_fieldPath (above key : String) : key.toList <:+ (fieldPath above key).toList := by
  unfold fieldPath
  split
  · exact List.suffix_rfl
  · rw [String.toList_append]
    exact List.suffix_append _ _

theorem prefix_pathOf (above : String) (keys : List String) :
    above.toList <+: (pathOf above keys).toList := by
  induction keys generalizing above with
  | nil => exact List.prefix_rfl
  | cons key keys ih => exact (prefix_fieldPath above key).trans (ih _)

/-- All keys are found in the path that they make. -/
theorem infix_pathOf {key : String} (member : key ∈ keys) (above : String) :
    key.toList <:+: (pathOf above keys).toList := by
  induction keys generalizing above with
  | nil => cases member
  | cons k keys ih =>
    obtain rfl | later := List.mem_cons.1 member
    · exact (suffix_fieldPath above key).isInfix.trans (prefix_pathOf _ keys).isInfix
    · exact ih later _

/-- A path without empty brackets is made from the keys of fields. -/
theorem isField_of_pathOf {above : String} (outside : Text.cut? "[]" (pathOf above keys) = none) :
    ∀ key ∈ keys, IsField key := by
  rintro _ member name rfl
  refine Text.cut?_eq_none_iff.1 outside (List.IsInfix.trans ?_ (infix_pathOf member above))
  rw [String.toList_append]
  exact (List.suffix_append _ _).isInfix

/-! ## How often a sample counts -/

/-- The keys make the path and lead through objects to a value that is not null. -/
structure Spells (v : Value) (path : String) (keys : List String) : Prop where
  some : keys ≠ []
  made : pathOf "" keys = path
  found : ∃ w, v.reach? keys = .some w ∧ w ≠ .null

/-- What is seen in a sample behind segments that make the path, without nulls. -/
def sightAt (path : String) (v : Value) : List Sighting :=
  (sight v).filter fun o => pathOf "" o.1 == path && !o.2.isNull

theorem isNull_eq_false_iff : v.isNull = false ↔ v ≠ .null := by
  cases v <;> simp [Value.isNull]

theorem mem_valuesAt_iff {os : List Observation} :
    w ∈ valuesAt path os ↔ (path, w) ∈ os ∧ w ≠ .null := by
  simp [valuesAt, isNull_eq_false_iff]

theorem valuesAt_observe_root (path : String) (v : Value) :
    valuesAt path (observe "" v) = (sightAt path v).map Prod.snd := by
  have made : ∀ o : Sighting, (o.below "").1 = pathOf "" o.1 := fun _ => rfl
  have seen : ∀ o : Sighting, (o.below "").2 = o.2 := fun _ => rfl
  rw [observe_eq_below, valuesAt, sightAt]
  simp only [List.filter_map, List.map_map, List.filter_filter, Function.comp_def, made, seen,
    Bool.and_comm]

theorem spells_iff (once : v.Once) (outside : Text.cut? "[]" path = none) :
    Spells v path keys ↔ ∃ w, (keys, w) ∈ sightAt path v := by
  simp only [sightAt, List.mem_filter, Bool.and_eq_true, beq_iff_eq, Bool.not_eq_true',
    isNull_eq_false_iff]
  constructor
  · rintro ⟨some, rfl, w, reached, present⟩
    exact ⟨w, (mem_sight_iff once (isField_of_pathOf outside)).2 ⟨some, reached⟩, rfl, present⟩
  · rintro ⟨w, seen, rfl, present⟩
    obtain ⟨some, reached⟩ := (mem_sight_iff once (isField_of_pathOf outside)).1 seen
    exact ⟨some, rfl, w, reached, present⟩

/-- Behind the same segments a value is seen only once. -/
theorem nodup_sightAt (once : v.Once) (outside : Text.cut? "[]" path = none) :
    ((sightAt path v).map Prod.fst).Nodup := by
  refine List.nodup_iff_count_le_one.2 fun keys => ?_
  by_cases member : keys ∈ (sightAt path v).map Prod.fst
  · obtain ⟨⟨_, w⟩, seen, rfl⟩ := List.mem_map.1 member
    obtain ⟨some, rfl, _⟩ := (spells_iff once outside).2 ⟨w, seen⟩
    refine ((List.filter_sublist.map Prod.fst).count_le _).trans ?_
    rw [← length_seenAt, seenAt_sight once some (isField_of_pathOf outside)]
    exact Option.length_toList_le
  · rw [List.count_eq_zero.2 member]
    exact Nat.zero_le 1

/-- A sample counts at most once for a path if it has values at the end of one way only that makes
the path. -/
theorem length_valuesAt_le_one_iff (once : v.Once) (outside : Text.cut? "[]" path = none) :
    (valuesAt path (observe "" v)).length ≤ 1 ↔
      ∀ keys keys', Spells v path keys → Spells v path keys' → keys = keys' := by
  have spelled : ∀ keys, keys ∈ (sightAt path v).map Prod.fst ↔ Spells v path keys := by
    intro keys
    rw [spells_iff once outside, List.mem_map]
    exact ⟨fun ⟨⟨_, w⟩, seen, own⟩ => ⟨w, own ▸ seen⟩, fun ⟨w, seen⟩ => ⟨_, seen, rfl⟩⟩
  rw [valuesAt_observe_root, List.length_map, ← List.length_map Prod.fst,
    ← List.toFinset_card_of_nodup (nodup_sightAt once outside), Finset.card_le_one]
  simp only [List.mem_toFinset, spelled]
  exact ⟨fun same keys keys' first second => same keys first keys' second,
    fun same keys first keys' second => same keys keys' first second⟩

/-! ## As many values as samples -/

theorem valuesAt_observations_eq (path : String) (samples : List Value) :
    valuesAt path (observations samples) =
      samples.flatMap fun v => valuesAt path (observe "" v) := by
  simp only [valuesAt, observations, List.filter_flatMap, List.map_flatMap]

/-- Where as many things are given as are asked, no one gives nothing exactly if no one gives two. -/
theorem forall_pos_iff {α β : Type} {xs : List α} {given : α → List β}
    (total : (xs.flatMap given).length = xs.length) :
    (∀ x ∈ xs, 1 ≤ (given x).length) ↔ ∀ x ∈ xs, (given x).length ≤ 1 := by
  rw [List.length_flatMap] at total
  have ones : (xs.map fun _ => 1).sum = xs.length := by simp
  constructor
  · intro atLeast
    by_contra! more
    have larger := List.sum_lt_sum (fun _ => 1) (fun x => (given x).length) atLeast more
    omega
  · intro atMost
    by_contra! fewer
    have smaller := List.sum_lt_sum (fun x => (given x).length) (fun _ => 1) atMost fewer
    omega

/-! ## Required fields -/

/-- A required field has a value in every sample if and only if its path is made by at most one way
to a value in every sample. This is so where the path is made from keys that are segments. -/
theorem required_present_iff (canonical : ∀ v ∈ samples, v.Canonical) (name : String)
    {schema : FieldSchema} (member : (path, schema) ∈ (entity samples name).fields)
    (required : schema.info.required = true) :
    ((∀ v ∈ samples, ∃ w, (path, w) ∈ observe "" v ∧ w ≠ .null) ↔
      ∀ v ∈ samples, ∀ keys keys', Spells v path keys → Spells v path keys' → keys = keys') ∧
    ((∀ v ∈ samples, ∀ keys, Spells v path keys → ∀ key ∈ keys, Path.IsSegment key) →
      ∀ v ∈ samples, ∃ w, (path, w) ∈ observe "" v ∧ w ≠ .null) := by
  obtain ⟨_, rfl⟩ := (mem_fields_entity_iff name).1 member
  obtain ⟨outside, counted⟩ := Bool.and_eq_true_iff.1 required
  rw [Option.isNone_iff_eq_none] at outside
  rw [beq_iff_eq, valuesAt_observations_eq] at counted
  have agree : (∀ v ∈ samples, ∃ w, (path, w) ∈ observe "" v ∧ w ≠ .null) ↔
      ∀ v ∈ samples, ∀ keys keys', Spells v path keys → Spells v path keys' → keys = keys' := by
    simp only [← mem_valuesAt_iff, ← List.length_pos_iff_exists_mem]
    refine (forall_pos_iff counted).trans (forall₂_congr fun v among => ?_)
    exact length_valuesAt_le_one_iff (canonical v among).once outside
  refine ⟨agree, fun segments => agree.2 fun v among keys keys' first second => ?_⟩
  have joined : ∀ keys, Spells v path keys → ".".intercalate keys = path := by
    intro keys spells
    rw [← spells.made, ← String.intercalate_nil, pathOf_intercalate (List.forall_mem_nil _)
      (segments v among keys spells), List.nil_append]
  exact Path.intercalate_injective first.some second.some (segments v among keys first)
    (segments v among keys' second) ((joined keys first).trans (joined keys' second).symm)

/-- Two customers who live in a city. -/
def residents : List Value :=
  [.obj [("address", .obj [("city", .str "Bonn")])],
    .obj [("address", .obj [("city", .str "Ulm")]), ("name", .str "Ann")]]

/-- The city is required, both have one, and only one way leads to it. -/
theorem residents_have_city :
    (∀ v ∈ residents, v.Canonical) ∧
    ("address.city", inferred residents "address.city") ∈ (entity residents "customer").fields ∧
    (inferred residents "address.city").info.required = true ∧
    (∀ v ∈ residents, ∃ w, ("address.city", w) ∈ observe "" v ∧ w ≠ .null) ∧
    ∀ v ∈ residents, ∀ keys keys', Spells v "address.city" keys → Spells v "address.city" keys' →
      keys = keys' := by
  have canonical : ∀ v ∈ residents, v.Canonical := by decide
  have member : ("address.city", inferred residents "address.city") ∈
      (entity residents "customer").fields :=
    (mem_fields_entity_iff "customer").2 ⟨by decide +kernel, rfl⟩
  have required : (inferred residents "address.city").info.required = true := by decide +kernel
  have present : ∀ v ∈ residents, ∃ w, ("address.city", w) ∈ observe "" v ∧ w ≠ .null :=
    List.forall_mem_cons.2 ⟨⟨.str "Bonn", by decide +kernel, nofun⟩,
      List.forall_mem_singleton.2 ⟨.str "Ulm", by decide +kernel, nofun⟩⟩
  exact ⟨canonical, member, required, present,
    (required_present_iff canonical "customer" member required).1.1 present⟩

/-- A customer whose city stands under two keys counts twice, so the city is required though
another customer has none. -/
theorem city_counted_twice :
    let told : Value :=
      .obj [("address", .obj [("city", .str "Bonn")]), ("address.city", .str "Bonn")]
    let samples : List Value := [told, .obj []]
    (∀ v ∈ samples, v.Canonical) ∧
    ("address.city", inferred samples "address.city") ∈ (entity samples "customer").fields ∧
    (inferred samples "address.city").info.required = true ∧
    ¬ ∃ w, ("address.city", w) ∈ observe "" (.obj []) ∧ w ≠ .null := by
  refine ⟨by decide, (mem_fields_entity_iff "customer").2 ⟨by decide +kernel, rfl⟩,
    by decide +kernel, ?_⟩
  rintro ⟨_, ⟨⟩, _⟩

end Infer

end DataMigration
