import DataMigration.Proofs.Schema.Sighting
import DataMigration.Proofs.Validation.Merging
import Mathlib.Data.List.Induction

/-!
# Schemas inferred from samples

An inferred schema declares what is seen in the samples, and the validator reads the samples along
the paths of these declarations. It finds nothing to object to in any sample exactly if the samples
agree: what they have in one place is all of one kind, or all of it numbers.
-/

namespace DataMigration

namespace Infer

/-! ## The type that covers values -/

/-- Values of one kind, or numbers. -/
def Alike (vs : List Value) : Prop :=
  (∃ kind, ∀ v ∈ vs, v.kind = kind) ∨ ∀ v ∈ vs, ∃ n, v = .num n

/-- The types that are inferred. -/
def inferable : List FieldType := [.object, .array, .integer, .decimal, .boolean, .string]

theorem typeOf_inferable (v : Value) : typeOf v ∈ inferable := by
  cases v with
  | num n => cases h : n.isFloat <;> simp [typeOf, inferable, h]
  | _ => simp [typeOf, inferable]

theorem widen_inferable (types : List FieldType) : widen types ∈ inferable := by
  unfold widen
  repeat' split
  all_goals decide

/-- Types that are all the same. -/
theorem widen_of_forall {types : List FieldType} {t : FieldType} (some : types ≠ [])
    (same : ∀ t' ∈ types, t' = t) (inferred : t ∈ inferable) : widen types = t := by
  obtain ⟨n, rfl⟩ : ∃ n, types = List.replicate (n + 1) t := by
    refine ⟨types.length - 1, List.eq_replicate_iff.2 ⟨?_, same⟩⟩
    have positive := List.length_pos_iff.2 some
    omega
  simp only [inferable, List.mem_cons, List.not_mem_nil, or_false] at inferred
  obtain rfl | rfl | rfl | rfl | rfl | rfl := inferred <;> simp [widen]

theorem widen_of_numbers {types : List FieldType}
    (numbers : ∀ t ∈ types, t = .integer ∨ t = .decimal) (mixed : ∃ t ∈ types, t ≠ .integer) :
    widen types = .decimal := by
  obtain ⟨t, member, other⟩ := mixed
  have object : FieldType.object ∉ types := fun h => by simpa using numbers _ h
  have array : FieldType.array ∉ types := fun h => by simpa using numbers _ h
  have some : types ≠ [] := List.ne_nil_of_mem member
  have integers : ¬ ∀ t ∈ types, t = .integer := fun all => other (all t member)
  rw [widen, if_neg (by simpa using object), if_neg (by simpa using array),
    if_neg (by simpa using some), if_neg (by simpa using integers), if_pos (by simpa using numbers)]

theorem typeOf_congr {v w : Value} (same : v.kind = w.kind) : typeOf v = typeOf w := by
  have kinds : ∀ v : Value, typeOf v =
      if v.kind = "boolean" then .boolean else if v.kind = "decimal" then .decimal
      else if v.kind = "integer" then .integer else if v.kind = "array" then .array
      else if v.kind = "object" then .object else .string := by
    intro v
    cases v with
    | num n => cases h : n.isFloat <;> simp [typeOf, Value.kind, h]
    | _ => simp [typeOf, Value.kind]
  rw [kinds v, kinds w, same]

theorem admits_typeOf {v : Value} (there : v ≠ .null) : (typeOf v).admits v = true := by
  cases v with
  | null => exact absurd rfl there
  | num n => cases h : n.isFloat <;> simp [typeOf, FieldType.admits, h]
  | _ => rfl

theorem alike_of_admits {vs : List Value} {t : FieldType} (inferred : t ∈ inferable)
    (admitted : ∀ v ∈ vs, t.admits v = true) : Alike vs := by
  by_cases number : t = .decimal
  · subst number
    refine .inr fun v member => ?_
    have own := admitted v member
    cases v with
    | num n => exact ⟨n, rfl⟩
    | _ => cases own
  · refine .inl ⟨t.name, fun v member => ?_⟩
    have own := admitted v member
    simp only [inferable, List.mem_cons, List.not_mem_nil, or_false] at inferred
    obtain rfl | rfl | rfl | rfl | rfl | rfl := inferred <;> cases v <;>
      simp_all [FieldType.admits, FieldType.name, Value.kind]

/-- The type that covers values admits them all exactly if they are alike. -/
theorem admits_widen_iff {vs : List Value} (there : ∀ v ∈ vs, v ≠ .null) :
    (∀ v ∈ vs, (widen (vs.map typeOf)).admits v = true) ↔ Alike vs := by
  constructor
  · exact alike_of_admits (widen_inferable _)
  · rintro (⟨kind, same⟩ | numbers) v member
    · have all : ∀ t ∈ vs.map typeOf, t = typeOf v := by
        rintro _ listed
        obtain ⟨w, other, rfl⟩ := List.mem_map.1 listed
        exact typeOf_congr ((same w other).trans (same v member).symm)
      have covered := widen_of_forall (List.ne_nil_of_mem (List.mem_map_of_mem member)) all
        (typeOf_inferable v)
      rw [covered]
      exact admits_typeOf (there v member)
    · by_cases mixed : ∃ t ∈ vs.map typeOf, t ≠ .integer
      · have covered : widen (vs.map typeOf) = .decimal := by
          refine widen_of_numbers ?_ mixed
          rintro _ listed
          obtain ⟨w, other, rfl⟩ := List.mem_map.1 listed
          obtain ⟨n, rfl⟩ := numbers w other
          cases h : n.isFloat <;> simp [typeOf, h]
        obtain ⟨n, rfl⟩ := numbers v member
        rw [covered]
        rfl
      · have all : ∀ t ∈ vs.map typeOf, t = .integer := by
          simpa using mixed
        have covered := widen_of_forall (List.ne_nil_of_mem (List.mem_map_of_mem member)) all
          (by decide)
        rw [covered, ← all _ (List.mem_map_of_mem member)]
        exact admits_typeOf (there v member)

/-! ## Observations by path -/

/-- The values that are observed at a path, without nulls. -/
def valuesAt (path : String) (os : List Observation) : List Value :=
  ((os.filter fun o => o.1 == path).map Prod.snd).filter fun v => !v.isNull

theorem valuesAt_append (path : String) (os os' : List Observation) :
    valuesAt path (os ++ os') = valuesAt path os ++ valuesAt path os' := by
  simp [valuesAt]

theorem valuesAt_of_not_mem {path : String} {os : List Observation}
    (unseen : path ∉ os.map Prod.fst) : valuesAt path os = [] := by
  have none : (os.filter fun o => o.1 == path) = [] := by
    refine List.filter_eq_nil_iff.2 fun o member same => unseen ?_
    rw [← eq_of_beq same]
    exact List.mem_map_of_mem member
  rw [valuesAt, none]
  rfl

theorem byPath_concat (os : List Observation) (o : Observation) :
    byPath (os ++ [o]) = Dict.upsert (byPath os) o.1 [] fun vs =>
      if o.2.isNull then vs else vs ++ [o.2] := by
  simp [byPath]

theorem sorted_byPath (os : List Observation) : Dict.Sorted (byPath os) := by
  induction os using List.reverseRecOn with
  | nil => exact List.Pairwise.nil
  | append_singleton os o ih =>
    rw [byPath_concat]
    exact ih.insert _ _

theorem get?_byPath (os : List Observation) (path : String) :
    Dict.get? (byPath os) path =
      if path ∈ os.map Prod.fst then some (valuesAt path os) else none := by
  induction os using List.reverseRecOn with
  | nil => rfl
  | append_singleton os o ih =>
    have before : (Dict.get? (byPath os) path).getD [] = valuesAt path os := by
      rw [ih]
      split
      · rfl
      · rename_i unseen
        exact (valuesAt_of_not_mem unseen).symm
    rw [byPath_concat, Dict.upsert, Dict.get?_insert, valuesAt_append]
    by_cases own : path = o.1
    · subst own
      have seen : o.1 ∈ (os ++ [o]).map Prod.fst := by simp
      rw [before, if_pos rfl, if_pos seen]
      cases null : o.2.isNull <;> simp [valuesAt, null]
    · have silent : valuesAt path [o] = [] := valuesAt_of_not_mem (by simpa using own)
      have seen : path ∈ (os ++ [o]).map Prod.fst ↔ path ∈ os.map Prod.fst := by simp [own]
      rw [if_neg own, ih, silent, List.append_nil]
      simp only [seen]

/-- Every path at which something is observed has its values. -/
theorem mem_byPath_iff {os : List Observation} {path : String} {vs : List Value} :
    (path, vs) ∈ byPath os ↔ path ∈ os.map Prod.fst ∧ vs = valuesAt path os := by
  have found := get?_byPath os path
  constructor
  · intro member
    rw [Dict.get?_of_mem (sorted_byPath os).nodup_keys member] at found
    split at found
    · rename_i seen
      exact ⟨seen, Option.some.inj found⟩
    · cases found
  · rintro ⟨seen, rfl⟩
    rw [if_pos seen] at found
    exact Dict.mem_of_get? found

/-! ## The inferred fields -/

/-- The values that samples have at the end of a way through objects. -/
def reached (samples : List Value) (keys : List String) : List Value :=
  samples.filterMap fun v => Value.present (v.reach? keys)

/-- Samples agree when what they have in one place is alike. -/
def Agree (samples : List Value) : Prop := ∀ keys, Alike (reached samples keys)

/-- What is observed in the samples. -/
def observations (samples : List Value) : List Observation := samples.flatMap (observe "")

theorem observe_root {v : Value} (plain : v.Plain) :
    observe "" v = (sight v).map (Sighting.observed []) :=
  @observe_eq v [] plain (List.forall_mem_nil _)

/-- What is observed in a sample at keys, joined, is what it has at the end of the way. -/
theorem valuesAt_observe {fields : List (String × Value)} (plain : (Value.obj fields).Plain)
    {key : String} {keys : List String} (named : ∀ k ∈ key :: keys, Path.IsKey k) :
    valuesAt (".".intercalate (key :: keys)) (observe "" (.obj fields)) =
      (Value.present ((Value.obj fields).reach? (key :: keys))).toList := by
  have same : ∀ o ∈ sight (.obj fields),
      ((Sighting.observed [] o).1 == ".".intercalate (key :: keys)) = (o.1 == key :: keys) := by
    intro o member
    obtain ⟨some, passes⟩ := passes_of_mem_sight plain o member
    have joined : (Sighting.observed [] o).1 = ".".intercalate o.1 := rfl
    rw [joined, Bool.eq_iff_iff, beq_iff_eq, beq_iff_eq]
    constructor
    · exact Path.intercalate_injective some (List.cons_ne_nil _ _)
        (fun s member => (passes s member).isSegment)
        (fun s member => (named s member).toIsSegment)
    · exact congrArg _
  have seen : (((observe "" (.obj fields)).filter fun o =>
      o.1 == ".".intercalate (key :: keys)).map Prod.snd) =
        seenAt (key :: keys) (sight (.obj fields)) := by
    rw [observe_root plain, List.filter_map, List.map_map, seenAt]
    simp only [Function.comp_def]
    rw [List.filter_congr same]
    rfl
  rw [valuesAt, seen, Value.present, seenAt_sight plain.once (List.cons_ne_nil _ _)
    fun k member => isField_of_isKey (named k member)]
  cases (Value.obj fields).reach? (key :: keys) with
  | none => rfl
  | some v => cases v <;> rfl

section Samples

variable {samples : List Value}

theorem valuesAt_observations (objects : ∀ v ∈ samples, ∃ fields, v = .obj fields)
    (plain : ∀ v ∈ samples, v.Plain) {key : String} {keys : List String}
    (named : ∀ k ∈ key :: keys, Path.IsKey k) :
    valuesAt (".".intercalate (key :: keys)) (observations samples) =
      reached samples (key :: keys) := by
  induction samples with
  | nil => rfl
  | cons v samples ih =>
    obtain ⟨⟨fields, rfl⟩, objects'⟩ := List.forall_mem_cons.1 objects
    obtain ⟨first, plain'⟩ := List.forall_mem_cons.1 plain
    have split : observations (.obj fields :: samples) =
        observe "" (.obj fields) ++ observations samples := rfl
    rw [split, valuesAt_append, valuesAt_observe first named, ih objects' plain', reached, reached,
      List.filterMap_cons]
    cases Value.present ((Value.obj fields).reach? (key :: keys)) <;> rfl

/-- Something is observed at keys, joined, when a sample has something there. -/
theorem mem_observations (objects : ∀ v ∈ samples, ∃ fields, v = .obj fields)
    (plain : ∀ v ∈ samples, v.Plain) {v w : Value} (member : v ∈ samples) {key : String}
    {keys : List String} (there : v.reach? (key :: keys) = some w) :
    ".".intercalate (key :: keys) ∈ (observations samples).map Prod.fst := by
  obtain ⟨fields, rfl⟩ := objects v member
  have named := (plain _ member).isKey there
  have seen := (mem_sight_iff (plain _ member).once
    fun k inside => isField_of_isKey (named k inside)).2 ⟨List.cons_ne_nil _ _, there⟩
  refine List.mem_map.2 ⟨Sighting.observed [] (key :: keys, w),
    List.mem_flatMap.2 ⟨_, member, ?_⟩, rfl⟩
  rw [observe_root (plain _ member)]
  exact List.mem_map_of_mem seen

/-- What is observed is seen in a sample. -/
theorem exists_sighting (plain : ∀ v ∈ samples, v.Plain) {path : String}
    (observed : path ∈ (observations samples).map Prod.fst) :
    ∃ v ∈ samples, ∃ o ∈ sight v, path = ".".intercalate o.1 := by
  obtain ⟨_, among, rfl⟩ := List.mem_map.1 observed
  obtain ⟨v, member, inside⟩ := List.mem_flatMap.1 among
  rw [observe_root (plain v member)] at inside
  obtain ⟨o, seen, rfl⟩ := List.mem_map.1 inside
  exact ⟨v, member, o, seen, rfl⟩

theorem mem_reached {v w : Value} (member : v ∈ samples) {keys : List String}
    (there : v.reach? keys = some w) (present : w ≠ .null) : w ∈ reached samples keys :=
  List.mem_filterMap.2 ⟨v, member, Value.present_eq_some_iff.2 ⟨there, present⟩⟩

theorem exists_of_mem_reached {w : Value} {keys : List String} (h : w ∈ reached samples keys) :
    w ≠ .null ∧ ∃ v ∈ samples, v.reach? keys = some w := by
  obtain ⟨v, member, found⟩ := List.mem_filterMap.1 h
  obtain ⟨there, present⟩ := Value.present_eq_some_iff.1 found
  exact ⟨present, v, member, there⟩

/-! ## What the validator finds -/

/-- What a record has at a path that is seen in a sample. -/
theorem get?_of_passes (r : TargetRecord) {key : String} {segs : List String}
    (passes : ∀ s ∈ key :: segs, Passes s) :
    r.get? (".".intercalate (key :: segs)) = Value.present
      (Path.walk (.obj r.data) ((key :: segs).map Path.Segment.plain)) := by
  have plain : segs.map Path.Segment.ofText = segs.map Path.Segment.plain :=
    List.map_congr_left fun s member => (passes s (List.mem_cons_of_mem _ member)).ofText
  rw [Path.get?_intercalate r fun s member => (passes s member).isSegment, plain]
  rfl

/-- A field is accepted without a value if it is not required, and with one if it has its type. -/
theorem fieldFindings_field_eq_nil_iff (n : Nat) (path : String) (vs : List Value)
    (v : Option Value) :
    Validation.fieldFindings [] (field n path vs) path v = [] ↔
      match v with
      | none => (field n path vs).info.required = false
      | some v => (widen (vs.map typeOf)).admits v = true := by
  cases v with
  | none =>
    cases required : (field n path vs).info.required <;>
      simp_all [field, FieldSchema.info, Validation.fieldFindings]
  | some v =>
    simp [field, Validation.fieldFindings, Validation.typeFindings, Validation.lengthFindings,
      Validation.allowedFindings, Validation.propertiesFindings, Validation.itemsFindings,
      Validation.ruleFindings_nil]

variable (samples) in
/-- The field that is inferred at a path. -/
def inferred (path : String) : FieldSchema :=
  field samples.length path (valuesAt path (observations samples))

theorem mem_fields_entity_iff (name : String) {path : String} {schema : FieldSchema} :
    (path, schema) ∈ (entity samples name).fields ↔
      path ∈ (observations samples).map Prod.fst ∧ schema = inferred samples path := by
  constructor
  · intro member
    obtain ⟨⟨path, vs⟩, among, same⟩ := List.mem_map.1 member
    obtain ⟨observed, rfl⟩ := mem_byPath_iff.1 among
    obtain ⟨rfl, rfl⟩ := Prod.mk.inj same
    exact ⟨observed, rfl⟩
  · rintro ⟨observed, rfl⟩
    exact List.mem_map.2 ⟨_, mem_byPath_iff.2 ⟨observed, rfl⟩, rfl⟩

theorem contains_fields_entity_iff (name : String) {key : String} :
    Dict.contains (entity samples name).fields key = true ↔
      key ∈ (observations samples).map Prod.fst := by
  rw [← Dict.mem_keys_iff]
  constructor
  · intro known
    obtain ⟨⟨path, schema⟩, member, rfl⟩ := List.mem_map.1 known
    exact ((mem_fields_entity_iff _).1 member).1
  · intro observed
    have member := (mem_fields_entity_iff name).2 ⟨observed, rfl⟩
    exact List.mem_map.2 ⟨_, member, rfl⟩

theorem findings_entity_eq_nil_iff {name : String} {strict : Bool} {r : TargetRecord} :
    Validation.findings [] (entity samples name) strict r = [] ↔
      (∀ path ∈ (observations samples).map Prod.fst,
        Validation.fieldFindings [] (inferred samples path) path (r.get? path) = []) ∧
      ∀ key ∈ Dict.keys r.data, Validation.isFree key = true ∨
        key ∈ (observations samples).map Prod.fst := by
  rw [Validation.findings, List.append_eq_nil_iff, List.flatMap_eq_nil_iff, List.map_eq_nil_iff]
  refine and_congr ?_ ?_
  · constructor
    · intro accepted path observed
      exact accepted (path, _) ((mem_fields_entity_iff _).2 ⟨observed, rfl⟩)
    · rintro accepted ⟨path, schema⟩ member
      obtain ⟨observed, rfl⟩ := (mem_fields_entity_iff _).1 member
      exact accepted path observed
  · rw [Validation.unknownFields, List.filter_eq_nil_iff]
    refine forall_congr' fun key => imp_congr_right fun _ => ?_
    rw [← contains_fields_entity_iff name]
    cases Validation.isFree key <;> simp

/-- Where keys are passed only, each sample counts at most once; so a required field has a value in
all samples. -/
theorem present_of_required {path : String} {keys : List String} {v : Value}
    (required : (field samples.length path (reached samples keys)).info.required = true)
    (member : v ∈ samples) : Value.present (v.reach? keys) ≠ none := by
  have counted := (Bool.and_eq_true_iff.1 required).2
  have all := List.filterMap_length_eq_length.1 (eq_of_beq counted)
  exact Option.isSome_iff_ne_none.1 (all v member)

/-- What lies behind elements of an array is not required. -/
theorem required_elements {n : Nat} {vs : List Value} {key : String} {segs : List String}
    (member : key ++ "[]" ∈ segs) :
    (field n (".".intercalate segs) vs).info.required = false := by
  have brackets := Path.cut?_elements member
  simp only [field, FieldSchema.info]
  rw [Option.isNone_eq_false_iff.2 brackets, Bool.false_and]

/-- In samples that agree, the way to a value of one of them meets no array in any other. -/
theorem Agree.not_arr_on_way (agree : Agree samples) {v v' w : Value} {keys : List String}
    (among : v ∈ samples) (there : v.reach? keys = some w) (among' : v' ∈ samples) :
    ∀ before after items, keys = before ++ after → after ≠ [] →
      v'.reach? before ≠ some (.arr items) := by
  intro before after items whole more array
  rw [whole] at there
  obtain ⟨others, object⟩ := Value.exists_obj_of_reach? more there
  have arrays := mem_reached among' array (by simp)
  have objects := mem_reached among object (by simp)
  obtain ⟨kind, same⟩ | numbers := agree before
  · exact absurd ((same _ arrays).trans (same _ objects).symm) (by simp [Value.kind])
  · obtain ⟨n, number⟩ := numbers _ arrays
    cases number

/-- In samples that agree, what one of them has at an observed path is accepted. -/
theorem accepts_of_agree (objects : ∀ v ∈ samples, ∃ fields, v = .obj fields)
    (plain : ∀ v ∈ samples, v.Plain) (agree : Agree samples) {r : TargetRecord}
    (member : .obj r.data ∈ samples) {path : String}
    (observed : path ∈ (observations samples).map Prod.fst) :
    Validation.fieldFindings [] (inferred samples path) path (r.get? path) = [] := by
  obtain ⟨v, among, ⟨segs, w⟩, seen, rfl⟩ := exists_sighting plain observed
  obtain ⟨some, passes⟩ := passes_of_mem_sight (plain v among) _ seen
  obtain ⟨key, keys, rfl⟩ := List.exists_cons_of_ne_nil some
  rw [inferred, fieldFindings_field_eq_nil_iff, get?_of_passes r passes]
  by_cases elements : ∃ k, k ++ "[]" ∈ key :: keys
  · obtain ⟨k, behind⟩ := elements
    rw [Path.walk_elements (plain _ member) behind]
    exact required_elements behind
  · have named : ∀ k ∈ key :: keys, Path.IsKey k := by
      intro k inside
      obtain own | ⟨k', _, rfl⟩ := passes k inside
      · exact own
      · exact absurd ⟨k', inside⟩ elements
    obtain ⟨fields, rfl⟩ := objects v among
    have there := ((mem_sight_iff (plain _ among).once
      fun k inside => isField_of_isKey (named k inside)).1 seen).2
    rw [Path.walk_eq_reach? (agree.not_arr_on_way among there member),
      valuesAt_observations objects plain named]
    cases found : Value.present ((Value.obj r.data).reach? (key :: keys)) with
    | none =>
      refine eq_false_of_ne_true fun required => ?_
      exact present_of_required required member found
    | some u =>
      obtain ⟨reaches, present⟩ := Value.present_eq_some_iff.1 found
      have alike := agree (key :: keys)
      refine (admits_widen_iff fun u member => (exists_of_mem_reached member).1).2 alike u ?_
      exact mem_reached member reaches present

/-- Where the samples are accepted, what they have at the end of a way is alike. -/
theorem agree_of_accepts (objects : ∀ v ∈ samples, ∃ fields, v = .obj fields)
    (plain : ∀ v ∈ samples, v.Plain)
    (accepted : ∀ r : TargetRecord, .obj r.data ∈ samples →
      ∀ path ∈ (observations samples).map Prod.fst,
        Validation.fieldFindings [] (inferred samples path) path (r.get? path) = []) :
    Agree samples := by
  intro keys
  cases keys with
  | nil =>
    refine .inl ⟨"object", fun w there => ?_⟩
    obtain ⟨_, v, member, reaches⟩ := exists_of_mem_reached there
    obtain ⟨fields, rfl⟩ := objects v member
    cases reaches
    rfl
  | cons key keys =>
    refine (admits_widen_iff fun w there => (exists_of_mem_reached there).1).1 fun w there => ?_
    obtain ⟨present, v, member, reaches⟩ := exists_of_mem_reached there
    obtain ⟨fields, rfl⟩ := objects v member
    have named := (plain _ member).isKey reaches
    let r : TargetRecord :=
      { id := "", service := "", entity := "", data := fields, transformedAt := ⟨0, 0⟩ }
    have own := accepted r member _ (mem_observations objects plain member reaches)
    rw [inferred, fieldFindings_field_eq_nil_iff,
      get?_of_passes r fun s inside => .inl (named s inside), Path.walk_of_reach? reaches,
      Value.present_eq_some_iff.2 ⟨rfl, present⟩, valuesAt_observations objects plain named] at own
    exact own

theorem agree_iff : Agree samples ↔ ∀ keys : List String,
    (∃ kind, ∀ v ∈ samples, ∀ w, v.reach? keys = some w → w ≠ .null → w.kind = kind) ∨
    ∀ v ∈ samples, ∀ w, v.reach? keys = some w → w ≠ .null → ∃ n, w = .num n := by
  have all : ∀ (keys : List String) (P : Value → Prop), (∀ w ∈ reached samples keys, P w) ↔
      ∀ v ∈ samples, ∀ w, v.reach? keys = some w → w ≠ .null → P w := by
    intro keys P
    constructor
    · exact fun h v member w there present => h w (mem_reached member there present)
    · intro h w there
      obtain ⟨present, v, member, reaches⟩ := exists_of_mem_reached there
      exact h v member w reaches present
  simp only [Agree, Alike, all]

/-- An inferred schema finds nothing in its own samples, whether undeclared fields are errors or
not, if and only if the samples agree: at the end of every way through objects they have, nulls
aside, values of one kind or numbers. -/
theorem entity_accepts_samples_iff (objects : ∀ v ∈ samples, ∃ fields, v = .obj fields)
    (plain : ∀ v ∈ samples, v.Plain) (name : String) (strict : Bool) :
    (∀ r : TargetRecord, .obj r.data ∈ samples →
      Validation.findings [] (entity samples name) strict r = []) ↔
    ∀ keys : List String,
      (∃ kind, ∀ v ∈ samples, ∀ w, v.reach? keys = some w → w ≠ .null → w.kind = kind) ∨
      ∀ v ∈ samples, ∀ w, v.reach? keys = some w → w ≠ .null → ∃ n, w = .num n := by
  rw [← agree_iff]
  constructor
  · intro accepted
    refine agree_of_accepts objects plain fun r member => ?_
    exact (findings_entity_eq_nil_iff.1 (accepted r member)).1
  · intro agree r member
    refine findings_entity_eq_nil_iff.2 ⟨?_, fun key known => .inr ?_⟩
    · exact fun path observed => accepts_of_agree objects plain agree member observed
    · obtain ⟨w, found⟩ := Option.ne_none_iff_exists'.1
        (mt Dict.get?_eq_none_iff.1 (not_not.2 known))
      have reaches : (Value.obj r.data).reach? [key] = some w := by
        simp [Value.reach?, found]
      have observed := mem_observations objects plain member reaches
      rwa [String.intercalate_singleton] at observed

end Samples

/-- Two customers, one of which has no address and a whole number as balance. -/
def customers : List Value :=
  [.obj [("address", .obj [("city", .str "Bonn")]), ("balance", .num (.float ⟨0⟩)),
      ("orders", .arr [.obj [("id", .str "a")]])],
    .obj [("address", .null), ("balance", .num (.int 3)), ("orders", .arr [.str "b"])]]

theorem customers_plain : ∀ v ∈ customers, v.Plain := by
  refine List.forall_mem_cons.2 ⟨?_, List.forall_mem_singleton.2 ?_⟩
  · refine .obj (by decide) (by decide) ?_
    rintro _ (_ | ⟨_, _ | ⟨_, _ | ⟨_, ⟨⟩⟩⟩⟩)
    · refine .obj (by decide) (by decide) ?_
      exact List.forall_mem_singleton.2 (.str _)
    · exact .num _
    · refine .arr (List.forall_mem_singleton.2 (.obj (by decide) (by decide) ?_))
      exact List.forall_mem_singleton.2 (.str _)
  · refine .obj (by decide) (by decide) ?_
    rintro _ (_ | ⟨_, _ | ⟨_, _ | ⟨_, ⟨⟩⟩⟩⟩)
    · exact .null
    · exact .num _
    · exact .arr (List.forall_mem_singleton.2 (.str _))

/-- The two customers agree: the schema inferred from them accepts both. -/
theorem customers_agree : (∀ v ∈ customers, ∃ fields, v = .obj fields) ∧
    (∀ v ∈ customers, v.Plain) ∧
    (∀ r : TargetRecord, .obj r.data ∈ customers →
      Validation.findings [] (entity customers "customer") true r = []) ∧
    ∀ keys : List String,
      (∃ kind, ∀ v ∈ customers, ∀ w, v.reach? keys = some w → w ≠ .null → w.kind = kind) ∨
      ∀ v ∈ customers, ∀ w, v.reach? keys = some w → w ≠ .null → ∃ n, w = .num n := by
  have objects : ∀ v ∈ customers, ∃ fields, v = .obj fields := by
    simp [customers]
  have accepted : ∀ r : TargetRecord, .obj r.data ∈ customers →
      Validation.findings [] (entity customers "customer") true r = [] := by
    rintro ⟨_, _, _, data, _⟩ member
    obtain first | second := List.mem_cons.1 member
    · obtain rfl := Value.obj.inj first
      rfl
    · obtain rfl := Value.obj.inj (List.mem_singleton.1 second)
      rfl
  exact ⟨objects, customers_plain, accepted,
    (entity_accepts_samples_iff objects customers_plain "customer" true).1 accepted⟩

end Infer

end DataMigration
