import DataMigration.Document.Record
import DataMigration.Proofs.Dict
import DataMigration.Proofs.Document.Canonical
import Mathlib.Data.List.Nodup
import Mathlib.Data.List.Pairwise

/-!
# The parts of records

A record type whose names are all different finds each part under the name of its field or under
the other name that is accepted for it. A mapping that has each key once is such a record unless it
gives a field under both names.
-/

namespace DataMigration

namespace FieldName

/-- The keys under which a field may be given. -/
def keys (f : FieldName) : List String := f.name :: f.alternative.toList

/-- No key belongs to two fields. -/
def Apart (shape : List FieldName) : Prop := (shape.flatMap keys).Nodup

instance (shape : List FieldName) : Decidable (Apart shape) :=
  inferInstanceAs (Decidable (shape.flatMap keys).Nodup)

theorem accepts_iff {f : FieldName} {key : String} : f.accepts key = true ↔ key ∈ f.keys := by
  simp only [accepts, keys, Bool.or_eq_true, beq_iff_eq, List.mem_cons, Option.mem_toList]
  exact or_congr_left eq_comm

theorem accepts_name (f : FieldName) : f.accepts f.name = true :=
  accepts_iff.2 List.mem_cons_self

/-- Where no key belongs to two fields, a key leads to its field. -/
theorem find?_accepts {shape : List FieldName} (apart : Apart shape) {f : FieldName}
    (own : f ∈ shape) {key : String} (given : f.accepts key = true) :
    (shape.find? fun g => g.accepts key) = some f := by
  induction shape with
  | nil => cases own
  | cons g shape ih =>
    obtain ⟨_, rest, foreign⟩ := List.nodup_append.1 apart
    obtain rfl | later := List.mem_cons.1 own
    · rw [List.find?_cons, given]
    · cases first : g.accepts key with
      | true =>
        exact absurd rfl (foreign key (accepts_iff.1 first) key
          (List.mem_flatMap.2 ⟨f, later, accepts_iff.1 given⟩))
      | false =>
        rw [List.find?_cons, first]
        exact ih rest later

theorem mem_of_find?_accepts {shape : List FieldName} {f : FieldName} {key : String}
    (found : (shape.find? fun g => g.accepts key) = some f) :
    f ∈ shape ∧ f.accepts key = true :=
  ⟨List.mem_of_find?_eq_some found, List.find?_some (p := fun g : FieldName => g.accepts key) found⟩

theorem accepts_alternative {f : FieldName} {other : String} (second : other ∈ f.alternative) :
    f.accepts other = true :=
  accepts_iff.2 (List.mem_cons_of_mem _ (Option.mem_toList.2 second))

/-- Where no key belongs to two fields, they have different names. -/
theorem eq_of_name_eq {shape : List FieldName} (apart : Apart shape) {f g : FieldName}
    (own : f ∈ shape) (own' : g ∈ shape) (same : f.name = g.name) : f = g := by
  have equal := find?_accepts apart own f.accepts_name
  rw [same, find?_accepts apart own' g.accepts_name] at equal
  exact (Option.some.inj equal).symm

theorem name_ne_alternative {shape : List FieldName} (apart : Apart shape) {f : FieldName}
    (own : f ∈ shape) {other : String} (second : other ∈ f.alternative) : f.name ≠ other := by
  have once := (List.nodup_flatMap.1 apart).1 f own
  rintro rfl
  exact (List.nodup_cons.1 once).1 (Option.mem_toList.2 second)

end FieldName

namespace Record

open FieldName

theorem part?_eq_get? (r : Record) (name : String) : r.part? name = Dict.get? r name := by
  induction r with
  | nil => rfl
  | cons e r ih =>
    obtain ⟨k, t⟩ := e
    rw [part?, Dict.get?, ih]

theorem distinct_iff {r : Record} : r.distinct = true ↔ (Dict.keys r).Nodup := by
  induction r with
  | nil => simp [distinct, Dict.keys]
  | cons e r ih =>
    obtain ⟨k, t⟩ := e
    have fresh : (!(r.any fun e => e.1 == k)) = true ↔ k ∉ Dict.keys r := by
      rw [Bool.not_eq_true', ← Bool.not_eq_true, Dict.mem_keys_iff]
      rfl
    rw [distinct, Bool.and_eq_true, ih, fresh]
    exact List.nodup_cons.symm

variable {shape : List FieldName} {entries : List (String × Tree)} {f : FieldName}

theorem get?_known (apart : Apart shape) (own : f ∈ shape) :
    Dict.get? (known shape entries) f.name =
      (entries.find? fun e => f.accepts e.1).map (·.2) := by
  induction entries with
  | nil => rfl
  | cons e entries ih =>
    unfold known at ih ⊢
    rw [List.find?_cons, List.filterMap_cons]
    cases here : f.accepts e.1 with
    | true =>
      rw [find?_accepts apart own here]
      simp [Dict.get?]
    | false =>
      rw [← ih]
      cases found : shape.find? fun g => g.accepts e.1 with
      | none => rfl
      | some g =>
        have other : g.name ≠ f.name := by
          intro same
          obtain ⟨among, accepted⟩ := mem_of_find?_accepts found
          rw [← eq_of_name_eq apart among own same, accepted] at here
          cases here
        simp [Dict.get?, other]

theorem find?_key (entries : List (String × Tree)) (key : String) :
    ((entries.find? fun e => key == e.1).map (·.2)) = Dict.get? entries key := by
  induction entries with
  | nil => rfl
  | cons e entries ih =>
    obtain ⟨k, t⟩ := e
    rw [List.find?_cons, Dict.get?, ← ih]
    by_cases here : k = key
    · simp [here]
    · rw [if_neg here, beq_eq_false_iff_ne.2 (Ne.symm here)]

/-- A field with one name is found under that name. -/
theorem part?_known (apart : Apart shape) (own : f ∈ shape) (plain : f.alternative = none) :
    (known shape entries).part? f.name = Dict.get? entries f.name := by
  rw [part?_eq_get?, get?_known apart own, ← find?_key]
  simp [accepts, plain]

/-- A field with two names is found under the one that is given. -/
theorem part?_known_of_alternative (apart : Apart shape) (own : f ∈ shape) {other : String}
    (second : f.alternative = some other)
    (single : Dict.get? entries f.name = none ∨ Dict.get? entries other = none) :
    (known shape entries).part? f.name =
      (Dict.get? entries f.name).or (Dict.get? entries other) := by
  rw [part?_eq_get?, get?_known apart own]
  induction entries with
  | nil => rfl
  | cons e entries ih =>
    obtain ⟨k, t⟩ := e
    simp only [Dict.get?] at single ⊢
    by_cases first : k = f.name
    · have here : f.accepts k = true := by simp [accepts, first]
      rw [List.find?_cons, here, if_pos first]
      rfl
    · rw [if_neg first] at single ⊢
      by_cases last : k = other
      · have here : f.accepts k = true := by simp [accepts, second, last]
        rw [if_pos last] at single ⊢
        rw [List.find?_cons, here, single.resolve_right (Option.some_ne_none t)]
        rfl
      · have absent : f.accepts k = false := by
          simp [accepts, second, Ne.symm first, Ne.symm last]
        rw [if_neg last] at single ⊢
        rw [List.find?_cons, absent]
        exact ih single

/-- A field that is not given under both of its names is given under one key. -/
theorem key_eq_of_single
    (single : ∀ other ∈ f.alternative,
      Dict.get? entries f.name = none ∨ Dict.get? entries other = none)
    {e e' : String × Tree} (member : e ∈ entries) (member' : e' ∈ entries)
    (accepted : f.accepts e.1 = true) (accepted' : f.accepts e'.1 = true) : e.1 = e'.1 := by
  have given : ∀ x ∈ entries, Dict.get? entries x.1 ≠ none := fun x among none =>
    Dict.get?_eq_none_iff.1 none (List.mem_map_of_mem among)
  rw [accepts_iff, keys, List.mem_cons, Option.mem_toList] at accepted accepted'
  obtain name | other := accepted
  · obtain name' | other' := accepted'
    · exact name.trans name'.symm
    · obtain none | none := single _ other'
      · exact absurd (name ▸ none) (given e member)
      · exact absurd none (given e' member')
  · obtain name' | other' := accepted'
    · obtain none | none := single _ other
      · exact absurd (name' ▸ none) (given e' member')
      · exact absurd none (given e member)
    · exact Option.some.inj ((Option.mem_def.1 other).symm.trans (Option.mem_def.1 other'))

/-- A field that is given under both of its names is given twice. -/
theorem single_of_distinct (apart : Apart shape)
    (distinct : (known shape entries).distinct = true) (own : f ∈ shape) {other : String}
    (second : other ∈ f.alternative) :
    Dict.get? entries f.name = none ∨ Dict.get? entries other = none := by
  rw [distinct_iff, Dict.keys, List.nodup_iff_pairwise_ne, List.pairwise_map, known,
    List.pairwise_filterMap] at distinct
  by_contra both
  obtain ⟨first, last⟩ := not_or.1 both
  obtain ⟨t, given⟩ := Option.ne_none_iff_exists'.1 first
  obtain ⟨u, again⟩ := Option.ne_none_iff_exists'.1 last
  have symmetric : Std.Symm fun e e' : String × Tree =>
      ∀ b, ((shape.find? fun f => f.accepts e.1).map fun f => (f.name, e.2)) = some b →
        ∀ b', ((shape.find? fun f => f.accepts e'.1).map fun f => (f.name, e'.2)) = some b' →
          b.1 ≠ b'.1 := ⟨fun _ _ h b hb b' hb' same => h b' hb' b hb same.symm⟩
  refine List.Pairwise.forall distinct (Dict.mem_of_get? given) (Dict.mem_of_get? again)
    (fun same => name_ne_alternative apart own second (congrArg Prod.fst same))
    (f.name, t) ?_ (f.name, u) ?_ rfl
  · rw [find?_accepts apart own f.accepts_name]
    rfl
  · rw [find?_accepts apart own (accepts_alternative second)]
    rfl

/-- A mapping with each key once gives no field twice unless it does so under two names. -/
theorem distinct_known_iff (apart : Apart shape) (once : (Dict.keys entries).Nodup) :
    (known shape entries).distinct = true ↔
      ∀ f ∈ shape, ∀ other ∈ f.alternative,
        Dict.get? entries f.name = none ∨ Dict.get? entries other = none := by
  refine ⟨fun distinct f own other second => single_of_distinct apart distinct own second, ?_⟩
  intro single
  rw [distinct_iff, Dict.keys, List.nodup_iff_pairwise_ne, List.pairwise_map, known,
    List.pairwise_filterMap]
  have pairs := List.pairwise_map.1 (List.nodup_iff_pairwise_ne.1 once)
  refine pairs.imp_of_mem fun {e e'} member member' differ b first b' last same => ?_
  obtain ⟨g, found, rfl⟩ := Option.map_eq_some_iff.1 first
  obtain ⟨g', found', rfl⟩ := Option.map_eq_some_iff.1 last
  obtain ⟨own, accepted⟩ := mem_of_find?_accepts found
  obtain ⟨own', accepted'⟩ := mem_of_find?_accepts found'
  obtain rfl : g = g' := eq_of_name_eq apart own own' same
  exact differ (key_eq_of_single (single g own) member member' accepted accepted')

/-- The record of a mapping. -/
theorem ofTree?_of_entries {t : Tree} (inside : t.entries? = some entries) :
    ofTree? shape t =
      if (known shape entries).distinct then some (known shape entries) else none := by
  unfold ofTree?
  split
  · cases inside
  · rw [inside]
    rfl

/-- A record has its fields once, so nothing behind a field has its name. -/
theorem last_of_distinct (apart : Apart shape) (own : f ∈ shape) {before after : List (String × Tree)}
    {t : Tree} (distinct : (known shape (before ++ (f.name, t) :: after)).distinct = true) :
    ∀ e ∈ after, e.1 ≠ f.name := by
  intro e member same
  have kept : ∀ u : Tree, ((shape.find? fun g => g.accepts f.name).map fun g => (g.name, u)) =
      some (f.name, u) := by
    intro u
    rw [find?_accepts apart own f.accepts_name]
    rfl
  have again : (f.name, e.2) ∈ known shape after :=
    List.mem_filterMap.2 ⟨e, member, by rw [same]; exact kept e.2⟩
  have whole : known shape (before ++ (f.name, t) :: after) =
      known shape before ++ (f.name, t) :: known shape after := by
    unfold known
    rw [List.filterMap_append, List.filterMap_cons, kept t]
  rw [distinct_iff, whole, Dict.keys, List.map_append, List.map_cons] at distinct
  have fresh := (List.nodup_cons.1 (List.nodup_append.1 distinct).2.1).1
  exact fresh (List.mem_map.2 ⟨_, again, rfl⟩)

/-- Of the entries with one key, the last one counts in the value of a mapping. -/
theorem get?_of_fields? {before after : List (String × Tree)} {key : String} {u : Tree}
    {members : List (String × Value)}
    (all : Tree.fields? (before ++ (key, u) :: after) = some members)
    (last : ∀ e ∈ after, e.1 ≠ key) :
    ∃ v, Dict.get? (Dict.ofEntries members) key = some v ∧ u.value? = some v := by
  rw [Tree.fields?_eq, List.mapM_append, List.mapM_cons] at all
  obtain ⟨fs₁, _, all⟩ := Option.bind_eq_some_iff.1 all
  obtain ⟨_, rest, same⟩ := Option.bind_eq_some_iff.1 all
  cases same
  obtain ⟨g, first, rest⟩ := Option.bind_eq_some_iff.1 rest
  obtain ⟨fs₂, tail, same⟩ := Option.bind_eq_some_iff.1 rest
  cases same
  obtain ⟨v, held, rfl⟩ := Option.map_eq_some_iff.1 first
  refine ⟨v, Dict.get?_ofEntries_eq_some_iff.2 ⟨fs₁, fs₂, rfl, fun g member => ?_⟩, held⟩
  obtain ⟨e, among, pair⟩ := exists_of_mem_mapM tail member
  obtain ⟨w, _, rfl⟩ := Option.map_eq_some_iff.1 pair
  exact last e among

/-- The value of a document has the parts of its record as members. -/
theorem get?_of_part? (apart : Apart shape) {t u : Tree} {r : Record} {members : Dict Value}
    (record : ofTree? shape t = some r) (holds : t.value? = some (.obj members)) (own : f ∈ shape)
    (plain : f.alternative = none) (part : r.part? f.name = some u) :
    ∃ v, Dict.get? members f.name = some v ∧ u.value? = some v := by
  cases t with
  | value v =>
    cases holds
    rw [ofTree?_of_entries rfl] at record
    split at record
    · cases record
      rw [part?_known apart own plain, ← Dict.mapValues, Dict.get?_mapValues] at part
      obtain ⟨v, found, rfl⟩ := Option.map_eq_some_iff.1 part
      exact ⟨v, found, rfl⟩
    · cases record
  | dict entries =>
    obtain ⟨fs, all, same⟩ := Option.map_eq_some_iff.1 holds
    cases same
    rw [ofTree?_of_entries rfl] at record
    split at record
    · rename_i distinct
      cases record
      rw [part?_known apart own plain] at part
      obtain ⟨before, after, rfl⟩ := List.append_of_mem (Dict.mem_of_get? part)
      exact get?_of_fields? all (last_of_distinct apart own distinct)
    · cases record
  | text _ => cases holds
  | bare _ => exact absurd (Scalar.value?_cases holds) (by simp)
  | list _ => simp [Tree.value?] at holds
  | odd => cases holds

/-- The parts of a record are parts of its document. -/
theorem leaves_part? {P : Tree → Prop} {t u : Tree} {r : Record} {name : String}
    (leaves : t.Leaves P) (record : ofTree? shape t = some r) (part : r.part? name = some u) :
    u.Leaves P := by
  cases inside : t.entries? with
  | none =>
    unfold ofTree? at record
    split at record
    · cases leaves with
      | leaf single _ => cases single
    · rw [inside] at record
      cases record
  | some entries =>
    rw [ofTree?_of_entries inside] at record
    split at record
    · cases record
      rw [part?_eq_get?] at part
      obtain ⟨e, member, kept⟩ := List.mem_filterMap.1 (Dict.mem_of_get? part)
      obtain ⟨f, _, same⟩ := Option.map_eq_some_iff.1 kept
      cases same
      exact leaves.entries?_forall inside e member
    · cases record

section

variable {α : Type} {P : Tree → Prop} {t : Tree} {r : Record} {name : String}
  {read : Tree → Option α} {a : α}

/-- What a field has is its default or is read from a part of the document. -/
theorem exists_of_withDefault {default : α} (leaves : t.Leaves P)
    (record : ofTree? shape t = some r) (given : r.withDefault name default read = some a) :
    a = default ∨ ∃ u, r.part? name = some u ∧ u.Leaves P ∧ read u = some a := by
  unfold withDefault at given
  cases part : r.part? name with
  | none =>
    rw [part] at given
    exact .inl (Option.some.inj given).symm
  | some u =>
    rw [part] at given
    exact .inr ⟨u, rfl, leaves_part? leaves record part, given⟩

theorem exists_of_optional (leaves : t.Leaves P) (record : ofTree? shape t = some r)
    (given : r.optional name read = some (some a)) :
    ∃ u, u.Leaves P ∧ ¬ u.isAbsent = true ∧ read u = some a := by
  obtain missing | ⟨u, _, own, read⟩ := exists_of_withDefault leaves record given
  · cases missing
  · rw [Tree.optional?_eq] at read
    split at read
    · cases read
    · rename_i present
      obtain ⟨_, given, same⟩ := Option.map_eq_some_iff.1 read
      cases same
      exact ⟨u, own, present, given⟩

end

end Record

end DataMigration
