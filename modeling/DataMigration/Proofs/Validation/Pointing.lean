import DataMigration.Proofs.Validation.Legible
import DataMigration.Proofs.Validation.Located

/-!
# Findings that point at their values

A finding about a value names the places that lead to it from a declared field, written one behind
the other. Reading the record at that path finds the value wherever the places are legible behind
the field. Where a schema declares others, as elements of elements or properties with a dot in their
names, some record has a finding whose value is not found under its path.
-/

namespace DataMigration

/-! ## Values inside values -/

namespace Path

section

variable {v w : Value} {p : Place} {ps : List Place}

theorem ne_null_of_found? (found : found? v ps = some w) : v ≠ .null := by
  rintro rfl
  rw [found?_null] at found
  cases found

/-- Behind a first place, what is found is found in what is there. -/
theorem exists_inside_of_found? (found : found? v (p :: ps) = some w) :
    ∃ u, inside? v p = some u ∧ found? u ps = some w := by
  rw [found?_cons] at found
  cases inside : inside? v p with
  | none =>
    rw [inside] at found
    exact absurd rfl (ne_null_of_found? found)
  | some u =>
    rw [inside] at found
    exact ⟨u, rfl, found⟩

/-- What is found behind some places is found in what is found at them. -/
theorem found?_append_eq_some_iff {qs : List Place} :
    found? v (ps ++ qs) = some w ↔ ∃ u, found? v ps = some u ∧ found? u qs = some w := by
  induction ps generalizing v with
  | nil =>
    constructor
    · intro found
      exact ⟨v, Value.present_eq_some_iff.2 ⟨rfl, ne_null_of_found? found⟩, found⟩
    · rintro ⟨u, there, found⟩
      obtain ⟨⟨⟩, -⟩ := Value.present_eq_some_iff.1 there
      exact found
  | cons p ps ih => simp only [List.cons_append, found?_cons v, ih]

/-- A value that holds nothing. -/
def IsScalar (v : Value) : Prop := ∀ p, inside? v p = none

/-- Where nothing else was, a planted scalar is found at its own places only. -/
theorem eq_of_found?_plant {qs : List Place} (scalar : IsScalar w)
    (found : found? (plant w ps .null) qs = some w) : qs = ps := by
  have leaf : ∀ p more, found? w (p :: more) = none := fun p more => by
    rw [found?_cons, scalar p, Option.getD_none, found?_null]
  -- a walk that ends on the way to the scalar finds a container, one beside it nothing
  by_cases above : qs <+: ps
  · obtain ⟨more, rfl⟩ := above
    cases more with
    | nil => exact (List.append_nil qs).symm
    | cons p more =>
      have there := at?_plant_append w qs (p :: more) .null
      obtain ⟨holder, -⟩ := Value.present_eq_some_iff.1 found
      have same : plant w (p :: more) ((at? .null qs).getD .null) = w :=
        Option.some.inj (there.symm.trans holder)
      have inside := inside?_plant w p more ((at? .null qs).getD .null)
      rw [same, scalar p] at inside
      cases inside
  · by_cases below : ps <+: qs
    · obtain ⟨more, rfl⟩ := below
      rw [found?_plant_below] at found
      cases more with
      | nil => exact List.append_nil ps
      | cons p more =>
        rw [leaf] at found
        cases found
    · rw [found?_plant_beside (.null ps) above below, found?_null] at found
      cases found

end

end Path

/-! ## Arrays of machine size -/

/-- No array in the value has more elements than there are machine words. -/
inductive Value.Sized : Value → Prop
  | null : Sized .null
  | bool (b : Bool) : Sized (.bool b)
  | num (n : Number) : Sized (.num n)
  | str (s : String) : Sized (.str s)
  | arr {items : List Value} (count : (items.length : Int) ≤ Decimal.wordBound)
      (each : ∀ v ∈ items, Sized v) : Sized (.arr items)
  | obj {fields : Dict Value} (each : ∀ e ∈ fields, Sized e.2) : Sized (.obj fields)

namespace Path

section

variable {v w : Value} {p : Place} {ps : List Place}

/-- What lies inside a value of machine size has machine size, and so has its index. -/
theorem sized_of_inside? (sized : v.Sized) (inside : inside? v p = some w) :
    w.Sized ∧ WordSized [p] := by
  cases p with
  | key name =>
    refine ⟨?_, fun i => nofun⟩
    rw [inside?_key] at inside
    cases sized with
    | obj each => exact each _ (Dict.mem_of_get? inside)
    | _ => cases inside
  | item i =>
    cases sized with
    | arr count each =>
      refine ⟨each w (List.mem_of_getElem? inside), fun j member => ?_⟩
      obtain rfl : j = i := by simpa using member
      obtain ⟨bound, -⟩ := List.getElem?_eq_some_iff.1 inside
      omega
    | _ => cases inside

/-- The indices on the way to a value inside one of machine size are machine words. -/
theorem wordSized_of_at? (sized : v.Sized) (there : at? v ps = some w) : WordSized ps := by
  induction ps generalizing v with
  | nil => exact fun i => nofun
  | cons p ps ih =>
    obtain ⟨u, inside, further⟩ := Option.bind_eq_some_iff.1 there
    obtain ⟨within, own⟩ := sized_of_inside? sized inside
    intro i member
    obtain rfl | later := List.mem_cons.1 member
    · exact own i List.mem_cons_self
    · exact ih within further i later

/-- Planting a value of machine size along machine words gives one of machine size. -/
theorem sized_plant (sized : w.Sized) (words : WordSized ps) : (plant w ps .null).Sized := by
  induction ps with
  | nil => exact sized
  | cons p ps ih =>
    have below := ih words.tail
    cases p with
    | key name =>
      refine .obj fun e member => ?_
      obtain rfl : e = (name, plant w ps .null) := List.mem_singleton.1 member
      exact below
    | item i =>
      have word := words i List.mem_cons_self
      have length : (padded [] i).length = i + 1 := by simp [padded]
      refine .arr ?_ fun u member => ?_
      · rw [List.length_set]
        change ((padded [] i).length : Int) ≤ _
        omega
      · obtain beside | rfl := List.mem_or_eq_of_mem_set member
        · rw [List.eq_of_mem_replicate beside]
          exact .null
        · exact below

end

end Path

/-! ## Places up to their indices -/

namespace Path

/-- The same place, or the first element in the place of another. -/
def Place.atFirst : Place → Place
  | .key name => .key name
  | .item _ => .item 0

theorem wordSized_atFirst (ps : List Place) : WordSized (ps.map Place.atFirst) := by
  intro i member
  obtain ⟨p, _, own⟩ := List.mem_map.1 member
  cases p with
  | key name => cases own
  | item j =>
    cases own
    decide

/-- Which elements places lead through makes no difference to how they are read. -/
theorem LegibleBehind.of_atFirst {field : String} {ps : List Place}
    (legible : LegibleBehind field (ps.map Place.atFirst)) : LegibleBehind field ps where
  written := legible.written.imp_right (mt List.map_eq_nil_iff.2)
  starts := legible.starts
  legible := by
    refine ⟨fun name member => legible.legible.named name (List.mem_map_of_mem member), ?_⟩
    refine ((List.isChain_map _).1 legible.legible.follows).imp fun p q follows => ?_
    cases q with
    | key name => exact .key p name
    | item i =>
      obtain ⟨name, own, word⟩ := follows_item_iff.1 follows
      cases p with
      | key name' => exact follows_item_iff.2 ⟨name, own, word⟩
      | item j => cases own
  indexable i starts := by
    refine legible.indexable 0 ?_
    rw [List.head?_map, starts]
    rfl

end Path

/-! ## Contracts inside a contract -/

/-- The contract of the values at some places inside a value that has a contract. -/
inductive FieldSchema.Leads : FieldSchema → List Path.Place → FieldSchema → Prop
  | here (s : FieldSchema) : Leads s [] s
  | member {info : FieldInfo} {properties : List (String × FieldSchema)}
      {items : Option FieldSchema} {name : String} {s t : FieldSchema} {ps : List Path.Place}
      (declared : (name, s) ∈ properties) (further : Leads s ps t) :
      Leads (.mk info (some properties) items) (.key name :: ps) t
  | element {info : FieldInfo} {properties : Option (List (String × FieldSchema))}
      {s t : FieldSchema} {ps : List Path.Place} (i : Nat) (further : Leads s ps t) :
      Leads (.mk info properties (some s)) (.item i :: ps) t

/-- Which index is taken makes no difference to the contract of an element. -/
theorem FieldSchema.Leads.atFirst {s t : FieldSchema} {ps : List Path.Place}
    (leads : s.Leads ps t) : s.Leads (ps.map Path.Place.atFirst) t := by
  induction leads with
  | here s => exact .here s
  | member declared _ ih => exact .member declared ih
  | element i _ ih => exact .element 0 ih

namespace Validation

/-- The findings about a value itself. -/
def valueFindings (rules : FieldRules) (info : FieldInfo) (path : String) (v : Value) :
    List Finding :=
  typeFindings path info v ++ lengthFindings path info v ++ allowedFindings path info v ++
    ruleFindings rules path v

/-- The finding is one about a value that is found at declared places, and it names them. -/
def Tells (rules : FieldRules) (s : FieldSchema) (path : String) (v : Value) (f : Finding) : Prop :=
  ∃ ps t w, s.Leads ps t ∧ Path.found? v ps = some w ∧
    f ∈ valueFindings rules t.info (path ++ Path.behind ps) w

section

variable {rules : FieldRules} {path : String} {info : FieldInfo} {v w : Value} {f : Finding}
  {s t : FieldSchema} {ps : List Path.Place}

theorem isOwn_valueFindings (h : f ∈ valueFindings rules info path v) : IsOwn path f := by
  simp only [valueFindings, List.mem_append] at h
  obtain ((type | length) | allowed) | rule := h
  · exact isOwn_typeFindings type
  · exact isOwn_lengthFindings length
  · exact isOwn_allowedFindings allowed
  · exact isOwn_ruleFindings rule

/-- All findings about a value itself, but the ones about its length, carry it. -/
theorem value_of_mem_valueFindings (h : f ∈ valueFindings rules info path v)
    (kind : f.kind ≠ .maxLength) : f.value = some v := by
  simp only [valueFindings, List.mem_append] at h
  obtain ((type | length) | allowed) | rule := h
  · unfold typeFindings at type
    split at type
    · cases type
    · rw [List.mem_singleton.1 type]
  · unfold lengthFindings at length
    split at length
    · split at length
      · exact absurd (by rw [List.mem_singleton.1 length]) kind
      · cases length
    · cases length
  · simp only [allowedFindings] at allowed
    split at allowed
    · cases allowed
    · rw [List.mem_singleton.1 allowed]
  · obtain ⟨_, _, found⟩ := List.mem_filterMap.1 rule
    obtain ⟨_, _, rfl⟩ := Option.map_eq_some_iff.1 found
    rfl

/-- A value that its type does not admit is reported. -/
theorem exists_typeFinding (rules : FieldRules) (path : String)
    (misfit : info.type.admits v = false) :
    ∃ f ∈ valueFindings rules info path v, f.kind = .type := by
  simp [valueFindings, typeFindings, misfit]

/-- What is told of a value inside another is told of the other too. -/
theorem Tells.outside {s' : FieldSchema} {p : Path.Place}
    (tells : Tells rules s' (path ++ p.written) w f) (inside : Path.inside? v p = some w)
    (leads : ∀ {ps t}, s'.Leads ps t → s.Leads (p :: ps) t) : Tells rules s path v f := by
  obtain ⟨ps, t, u, further, found, listed⟩ := tells
  refine ⟨p :: ps, t, u, leads further, ?_, ?_⟩
  · rw [Path.found?_cons, inside]
    exact found
  · rw [Path.behind, ← String.append_assoc]
    exact listed

theorem append_written_key (path name : String) :
    path ++ "." ++ name = path ++ (Path.Place.key name).written := String.append_assoc

theorem append_written_item (path : String) (i : Nat) :
    path ++ "[" ++ digits i ++ "]" = path ++ (Path.Place.item i).written := by
  simp only [Path.Place.written, Path.bracket, digits, String.append_assoc]

/-- Where there is no value, something can only be missing. -/
theorem exists_value_of_mem {o : Option Value} (h : f ∈ fieldFindings rules s path o)
    (kind : f.kind ≠ .required) : ∃ u, o = some u := by
  cases o with
  | some u => exact ⟨u, rfl⟩
  | none =>
    obtain ⟨info, properties, items⟩ := s
    simp only [fieldFindings] at h
    split at h
    · rw [List.mem_singleton.1 h] at kind
      exact absurd rfl kind
    · cases h

mutual

/-- A finding about a value that is there tells of a value inside it. -/
theorem tells_fieldFindings : ∀ (s : FieldSchema) (path : String) {v : Value}, v ≠ .null →
    ∀ f ∈ fieldFindings rules s path (some v), f.kind ≠ .required → Tells rules s path v f
  | .mk info properties items, path, v, there, f, h, kind => by
    have own : f ∈ valueFindings rules info path v →
        Tells rules (.mk info properties items) path v f := fun listed =>
      ⟨[], _, v, .here _, Value.present_eq_some_iff.2 ⟨rfl, there⟩,
        by rw [Path.behind, String.append_empty]; exact listed⟩
    simp only [fieldFindings, List.mem_append] at h
    obtain (((((type | length) | allowed) | members) | elements) | rule) := h
    · exact own (by simp [valueFindings, type])
    · exact own (by simp [valueFindings, length])
    · exact own (by simp [valueFindings, allowed])
    · cases properties with
      | none => cases members
      | some properties =>
        cases v with
        | obj fields =>
          obtain ⟨name, s, declared, u, inside, tells⟩ :=
            tells_membersFindings properties path fields f members kind
          exact tells.outside inside (.member declared)
        | _ => cases members
    · cases items with
      | none => cases elements
      | some s =>
        cases v with
        | arr items =>
          obtain ⟨⟨u, i⟩, member, found⟩ := List.mem_flatMap.1 elements
          obtain ⟨_, there⟩ := exists_value_of_mem found kind
          rw [there, append_written_item] at found
          obtain ⟨⟨⟩, other⟩ := Value.present_eq_some_iff.1 there
          exact (tells_fieldFindings s _ other f found kind).outside
            (List.mem_zipIdx_iff_getElem?.1 member) (.element i)
        | _ => cases elements
    · exact own (by simp [valueFindings, rule])

/-- A finding about declared members tells of a value inside one of them. -/
theorem tells_membersFindings : ∀ (properties : List (String × FieldSchema)) (path : String)
    (members : Dict Value), ∀ f ∈ membersFindings rules properties path members,
      f.kind ≠ .required → ∃ name s, (name, s) ∈ properties ∧
        ∃ u, Path.inside? (.obj members) (.key name) = some u ∧
          Tells rules s (path ++ (Path.Place.key name).written) u f
  | [], _, _, _, h, _ => by cases h
  | (name, s) :: properties, path, members, f, h, kind => by
    simp only [membersFindings, List.mem_append] at h
    obtain first | others := h
    · obtain ⟨u, there⟩ := exists_value_of_mem first kind
      rw [there, append_written_key] at first
      obtain ⟨inside, other⟩ := Value.present_eq_some_iff.1 there
      exact ⟨name, s, List.mem_cons_self, u, inside,
        tells_fieldFindings s _ other f first kind⟩
    · obtain ⟨name', s', declared, tells⟩ :=
        tells_membersFindings properties path members f others kind
      exact ⟨name', s', List.mem_cons_of_mem _ declared, tells⟩

end

/-- A finding about a value at declared places inside another is one about the other. -/
theorem mem_fieldFindings_of_leads (leads : s.Leads ps t) (found : Path.found? v ps = some w)
    (h : f ∈ valueFindings rules t.info (path ++ Path.behind ps) w) :
    f ∈ fieldFindings rules s path (some v) := by
  induction leads generalizing path v with
  | here s =>
    obtain ⟨info, properties, items⟩ := s
    obtain ⟨⟨⟩, -⟩ := Value.present_eq_some_iff.1 found
    rw [Path.behind, String.append_empty] at h
    simp only [valueFindings, fieldFindings, FieldSchema.info, List.mem_append] at h ⊢
    obtain ((type | length) | allowed) | rule := h
    · simp [type]
    · simp [length]
    · simp [allowed]
    · simp [rule]
  | @member info properties items name s t ps declared further ih =>
    obtain ⟨u, inside, below⟩ := Path.exists_inside_of_found? found
    have other := Path.ne_null_of_found? below
    rw [Path.behind, ← String.append_assoc, ← append_written_key] at h
    have listed := ih below h
    cases v with
    | obj members =>
      have there : Value.present (Dict.get? members name) = some u :=
        Value.present_eq_some_iff.2 ⟨inside, other⟩
      have inner : f ∈ membersFindings rules properties path members := by
        rw [membersFindings_eq_flatMap]
        exact List.mem_flatMap.2 ⟨(name, s), declared, there ▸ listed⟩
      simp only [fieldFindings, propertiesFindings, List.mem_append]
      exact .inl (.inl (.inr inner))
    | _ => cases inside
  | @element info properties s t ps i further ih =>
    obtain ⟨u, inside, below⟩ := Path.exists_inside_of_found? found
    have other := Path.ne_null_of_found? below
    rw [Path.behind, ← String.append_assoc, ← append_written_item] at h
    have listed := ih below h
    cases v with
    | arr elements =>
      have there : Value.present (some u) = some u := Value.present_eq_some_iff.2 ⟨rfl, other⟩
      have inner : f ∈ itemsFindings rules (some s) path (.arr elements) := by
        refine List.mem_flatMap.2 ⟨(u, i), List.mem_zipIdx_iff_getElem?.2 inside, ?_⟩
        rw [there]
        exact listed
      simp only [fieldFindings, List.mem_append]
      exact .inl (.inr inner)
    | _ => cases inside

end

/-- No type admits all scalars. -/
theorem exists_misfit (t : FieldType) :
    ∃ w, t.admits w = false ∧ Path.IsScalar w ∧ w.Sized ∧ w ≠ .null := by
  have leaf : ∀ b, Path.IsScalar (.bool b) := fun b p => by cases p <;> rfl
  have text : ∀ s, Path.IsScalar (.str s) := fun s p => by cases p <;> rfl
  cases t with
  | boolean => exact ⟨.str "", rfl, text "", .str "", nofun⟩
  | _ => exact ⟨.bool true, rfl, leaf true, .bool true, nofun⟩

section

variable {rules : FieldRules} {s : EntitySchema} {strict : Bool} {r : TargetRecord} {f : Finding}

/-- If the finding is about the type of a value, about a value that is not allowed or about one that
a rule rejects, it carries a value, which the record has at its path. -/
def PointsAt (r : TargetRecord) (f : Finding) : Prop :=
  f.kind ∈ [.type, .enum, .validation] →
    ∃ v, f.value = some v ∧ Path.lookup (.obj r.data) f.field = some v

/-- Where the places that a schema declares are legible, all findings point at their values. -/
theorem pointsAt_of_legible (legible : ∀ e ∈ s.fields, TargetRecord.walks e.1 ≠ [] →
      ∀ ps t, e.2.Leads ps t → Path.LegibleBehind e.1 ps)
    (sized : (Value.obj r.data).Sized) (h : f ∈ findings rules s strict r) : PointsAt r f := by
  intro kind
  obtain declared | unknown := List.mem_append.1 h
  · obtain ⟨e, member, found⟩ := List.mem_flatMap.1 declared
    have present : f.kind ≠ .required := fun same => by simp [same] at kind
    obtain ⟨u, has⟩ := exists_value_of_mem found present
    obtain ⟨own, walk, there⟩ := r.get?_eq_some_iff.1 has
    have other : u ≠ .null := (Value.present_eq_some_iff.1 there).2
    rw [has] at found
    obtain ⟨ps, t, w, leads, inside, listed⟩ := tells_fieldFindings e.2 e.1 other f found present
    have whole : Path.found? (.obj r.data) (own ++ ps) = some w :=
      Path.found?_append_eq_some_iff.2 ⟨u, there, inside⟩
    have words : Path.WordSized ps := fun i later =>
      Path.wordSized_of_at? sized (Value.present_eq_some_iff.1 whole).1 i
        (List.mem_append_right own later)
    have read := (Path.forall_walks_append_iff (List.ne_nil_of_mem walk) words).2
      (legible e member (List.ne_nil_of_mem walk) ps t leads) own walk
    refine ⟨w, value_of_mem_valueFindings listed fun same => by simp [same] at kind, ?_⟩
    rw [(isOwn_valueFindings listed).field]
    exact Path.lookup_eq_some_iff.2 ⟨_, read, whole⟩
  · obtain ⟨key, _, rfl⟩ := List.mem_map.1 unknown
    simp [unknownField] at kind

/-- Where a schema declares places that are not legible, some record has a finding that does not
point at its value. -/
theorem legible_of_pointsAt {e : String × FieldSchema} (member : e ∈ s.fields)
    (readable : TargetRecord.walks e.1 ≠ []) {ps : List Path.Place} {t : FieldSchema}
    (leads : e.2.Leads ps t) (words : Path.WordSized ps)
    (points : ∀ r : TargetRecord, (Value.obj r.data).Sized → ∀ f ∈ findings rules s strict r,
      PointsAt r f) : Path.LegibleBehind e.1 ps := by
  rw [← Path.forall_walks_append_iff readable words]
  intro own walk
  obtain ⟨w, misfit, scalar, small, other⟩ := exists_misfit t.info.type
  obtain ⟨key, rest, rfl⟩ := TargetRecord.exists_key_of_mem_walks walk
  -- the record with nothing but the misfit at the places
  obtain ⟨data, planted⟩ : ∃ data, Path.plant w (.key key :: rest ++ ps) .null = .obj data :=
    ⟨_, rfl⟩
  let r : TargetRecord :=
    { id := "", service := "", entity := "", data, transformedAt := ⟨0, 0⟩ }
  have sized : (Value.obj data).Sized := by
    rw [← planted]
    refine Path.sized_plant small fun i place => ?_
    obtain first | later := List.mem_append.1 place
    · exact Path.wordSized_of_mem_walks walk i first
    · exact words i later
  have whole : Path.found? (.obj data) (.key key :: rest ++ ps) = some w := by
    have there := Path.found?_plant_below w (.key key :: rest ++ ps) [] .null
    rw [List.append_nil, planted] at there
    exact there.trans (Value.present_eq_some_iff.2 ⟨rfl, other⟩)
  obtain ⟨u, there, inside⟩ := Path.found?_append_eq_some_iff.1 whole
  have has : r.get? e.1 = some u := r.get?_eq_some_iff.2 ⟨_, walk, there⟩
  obtain ⟨f, listed, kind⟩ :=
    exists_typeFinding rules (e.1 ++ Path.behind ps) misfit
  have reported : f ∈ findings rules s strict r := by
    refine List.mem_append_left _ (List.mem_flatMap.2 ⟨e, member, ?_⟩)
    rw [has]
    exact mem_fieldFindings_of_leads leads inside listed
  obtain ⟨v, value, found⟩ := points r sized f reported (by simp [kind])
  rw [value_of_mem_valueFindings listed (by simp [kind])] at value
  obtain rfl := Option.some.inj value
  rw [(isOwn_valueFindings listed).field] at found
  obtain ⟨qs, read, at_places⟩ := Path.lookup_eq_some_iff.1 found
  rw [← planted] at at_places
  rwa [Path.eq_of_found?_plant scalar at_places] at read

/-- All findings about types, allowed values and rules point at their values in the records of a
schema, whatever the rules, exactly if every place that it declares behind a readable field is
legible there. -/
theorem findings_point_at_values_iff (rules : FieldRules) (s : EntitySchema) :
    (∀ (r : TargetRecord) (strict : Bool), (Value.obj r.data).Sized →
        ∀ f ∈ findings rules s strict r, f.kind ∈ [.type, .enum, .validation] →
          ∃ v, f.value = some v ∧ Path.lookup (.obj r.data) f.field = some v) ↔
      ∀ e ∈ s.fields, TargetRecord.walks e.1 ≠ [] →
        ∀ ps t, e.2.Leads ps t → Path.LegibleBehind e.1 ps := by
  constructor
  · intro points e member readable ps t leads
    have first : Path.LegibleBehind e.1 (ps.map Path.Place.atFirst) :=
      legible_of_pointsAt member readable leads.atFirst (Path.wordSized_atFirst ps)
        fun r sized f listed => points r false sized f listed
    exact first.of_atFirst
  · intro legible r strict sized f listed
    exact pointsAt_of_legible legible sized listed

end

/-- The lines of an order, each with a price. -/
def linesSchema : EntitySchema where
  fields := [("lines", .mk { name := "lines", type := .array } none
    (some (.mk { type := .object } (some [("price", .ofType "price" .decimal)]) none)))]

/-- An order whose first line has a text for its price. -/
def linesRecord : TargetRecord where
  id := "1"
  service := "shop"
  entity := "order"
  data := [("lines", .arr [.obj [("price", .str "free")]])]
  transformedAt := ⟨0, 0⟩

/-- All places in the lines of an order are legible, so findings about them point at their values,
as the one about the price of the first line does. -/
theorem price_found :
    (∀ e ∈ linesSchema.fields, TargetRecord.walks e.1 ≠ [] →
      ∀ ps t, e.2.Leads ps t → Path.LegibleBehind e.1 ps) ∧
    ∃ f ∈ findings [] linesSchema false linesRecord, f.field = "lines[0].price" ∧
      f.value = some (.str "free") ∧ Path.lookup (.obj linesRecord.data) f.field = f.value := by
  have legible : ∀ e ∈ linesSchema.fields, TargetRecord.walks e.1 ≠ [] →
      ∀ ps t, e.2.Leads ps t → Path.LegibleBehind e.1 ps := by
    intro e member _ ps t leads
    obtain rfl := List.mem_singleton.1 member
    have word : Path.IsIndexable "lines" := ⟨by decide, List.all_eq_true.1 (by decide)⟩
    have price : Path.IsName "price" := ⟨by decide, by decide +kernel⟩
    have below : Path.Legible ps := by
      cases leads with
      | here => exact Path.legible_nil
      | element i further =>
        cases further with
        | here => simp [Path.legible_cons_iff, Path.legible_nil]
        | member declared further =>
          cases List.mem_singleton.1 declared
          cases further
          simp [Path.legible_cons_iff, Path.legible_nil, Path.Follows.key, price]
    exact ⟨.inl (by decide), word.isName, below, fun _ _ => ⟨word, fun dotted =>
      absurd dotted (by decide)⟩⟩
  have sized : (Value.obj linesRecord.data).Sized := by
    refine .obj fun e member => ?_
    obtain rfl := List.mem_singleton.1 member
    refine .arr (by decide) fun v member => ?_
    obtain rfl := List.mem_singleton.1 member
    refine .obj fun e member => ?_
    obtain rfl := List.mem_singleton.1 member
    exact .str "free"
  obtain ⟨f, listed, kind, field, value⟩ : ∃ f ∈ findings [] linesSchema false linesRecord,
      f.kind = .type ∧ f.field = "lines[0].price" ∧ f.value = some (.str "free") := by
    decide +kernel
  obtain ⟨v, has, found⟩ := (findings_point_at_values_iff [] linesSchema).2 legible linesRecord
    false sized f listed (by simp [kind])
  exact ⟨legible, f, listed, field, value, found.trans has.symm⟩

/-! ## Elements of elements -/

/-- A field of rows of whole numbers. -/
def matrixSchema : EntitySchema where
  fields := [("matrix", .mk { name := "matrix", type := .array } none
    (some (.mk { type := .array } none (some (.ofType "" .integer)))))]

/-- A record with a text in its matrix. -/
def matrixRecord : TargetRecord where
  id := "1"
  service := "lab"
  entity := "sample"
  data := [("matrix", .arr [.arr [.nat 1, .str "x"]])]
  transformedAt := ⟨0, 0⟩

/-- The text in the matrix is reported under a path at which nothing is found. -/
theorem matrix_entry_not_found :
    ∃ f ∈ findings [] matrixSchema false matrixRecord, f.kind = .type ∧
      f.field = "matrix[0][1]" ∧ f.value = some (.str "x") ∧
      Path.lookup (.obj matrixRecord.data) f.field = none := by
  decide +kernel

end Validation

end DataMigration
