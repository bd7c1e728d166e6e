import DataMigration.Proofs.Dict
import DataMigration.Proofs.Path.Joined
import DataMigration.Schema.Infer

/-!
# What is seen in a sample

A walk through a sample sees values behind segments: a key leads into an object, and a key with
empty brackets into the first element of an array. Where only keys are passed, a value is seen
exactly once, and it is the one that a way through objects leads to. Paths are these segments,
joined.
-/

namespace DataMigration

namespace Value

/-- The value at the end of a way through objects. -/
def reach? : Value → List String → Option Value
  | v, [] => some v
  | .obj fields, key :: keys => (Dict.get? fields key).bind fun v => reach? v keys
  | _, _ :: _ => none

/-- All objects in the value have each of their keys once, and the keys can be segments of paths. -/
inductive Plain : Value → Prop
  | null : Plain .null
  | bool (b : Bool) : Plain (.bool b)
  | num (n : Number) : Plain (.num n)
  | str (s : String) : Plain (.str s)
  | arr {items : List Value} (inside : ∀ v ∈ items, Plain v) : Plain (.arr items)
  | obj {fields : List (String × Value)} (once : (Dict.keys fields).Nodup)
      (named : ∀ key ∈ Dict.keys fields, Path.IsKey key) (inside : ∀ e ∈ fields, Plain e.2) :
      Plain (.obj fields)

/-- All objects in the value have each of their keys once. -/
inductive Once : Value → Prop
  | null : Once .null
  | bool (b : Bool) : Once (.bool b)
  | num (n : Number) : Once (.num n)
  | str (s : String) : Once (.str s)
  | arr {items : List Value} (inside : ∀ v ∈ items, Once v) : Once (.arr items)
  | obj {fields : List (String × Value)} (single : (Dict.keys fields).Nodup)
      (inside : ∀ e ∈ fields, Once e.2) : Once (.obj fields)

theorem Plain.once {v : Value} (plain : v.Plain) : v.Once := by
  induction plain with
  | null => exact .null
  | bool b => exact .bool b
  | num n => exact .num n
  | str s => exact .str s
  | arr _ inside => exact .arr inside
  | obj single _ _ inside => exact .obj single inside

/-- The first field of an object that has each of its keys once, and the object without it. -/
theorem Once.of_cons {key : String} {v : Value} {fields : List (String × Value)}
    (once : (Value.obj ((key, v) :: fields)).Once) :
    v.Once ∧ key ∉ Dict.keys fields ∧ (Value.obj fields).Once := by
  cases once with
  | obj single inside =>
    obtain ⟨new, single⟩ := List.nodup_cons.1 single
    obtain ⟨first, inside⟩ := List.forall_mem_cons.1 inside
    exact ⟨first, new, .obj single inside⟩

theorem Plain.get? {fields : List (String × Value)} {key : String} {v : Value}
    (plain : (Value.obj fields).Plain) (found : Dict.get? fields key = some v) :
    Path.IsKey key ∧ v.Plain := by
  have member := Dict.mem_of_get? found
  cases plain with
  | obj _ named inside => exact ⟨named key (List.mem_map_of_mem member), inside _ member⟩

/-- The first field of a plain object, and the object without it. -/
theorem Plain.of_cons {key : String} {v : Value} {fields : List (String × Value)}
    (plain : (Value.obj ((key, v) :: fields)).Plain) :
    Path.IsKey key ∧ v.Plain ∧ key ∉ Dict.keys fields ∧ (Value.obj fields).Plain := by
  cases plain with
  | obj once named inside =>
    obtain ⟨new, once⟩ := List.nodup_cons.1 once
    obtain ⟨own, named⟩ := List.forall_mem_cons.1 named
    obtain ⟨first, inside⟩ := List.forall_mem_cons.1 inside
    exact ⟨own, first, new, .obj once named inside⟩

/-- Only plain keys are passed on the way through a plain value. -/
theorem Plain.isKey {v w : Value} {keys : List String} (plain : v.Plain)
    (reached : v.reach? keys = some w) : ∀ key ∈ keys, Path.IsKey key := by
  induction keys generalizing v with
  | nil => exact List.forall_mem_nil _
  | cons key keys ih =>
    cases v with
    | obj fields =>
      obtain ⟨u, found, further⟩ := Option.bind_eq_some_iff.1 reached
      obtain ⟨own, inside⟩ := plain.get? found
      exact List.forall_mem_cons.2 ⟨own, ih inside further⟩
    | _ => cases reached

theorem reach?_append (v : Value) (before after : List String) :
    v.reach? (before ++ after) = (v.reach? before).bind fun w => w.reach? after := by
  induction before generalizing v with
  | nil => rfl
  | cons key keys ih =>
    cases v with
    | obj fields =>
      simp only [List.cons_append, reach?, Option.bind_assoc, ih]
    | _ => rfl

/-- Whatever the way goes on from is an object. -/
theorem exists_obj_of_reach? {v w : Value} {before after : List String} (more : after ≠ [])
    (reached : v.reach? (before ++ after) = some w) :
    ∃ fields, v.reach? before = some (.obj fields) := by
  rw [reach?_append] at reached
  obtain ⟨u, first, further⟩ := Option.bind_eq_some_iff.1 reached
  cases after with
  | nil => exact absurd rfl more
  | cons key keys =>
    cases u with
    | obj fields => exact ⟨fields, first⟩
    | _ => cases further

end Value

namespace Path

open Value

/-- A way through objects is followed by the path. -/
theorem walk_of_reach? {v w : Value} {keys : List String} (reached : v.reach? keys = some w) :
    walk v (keys.map Segment.plain) = some w := by
  induction keys generalizing v with
  | nil => exact reached
  | cons key keys ih =>
    cases v with
    | obj fields =>
      obtain ⟨u, found, further⟩ := Option.bind_eq_some_iff.1 reached
      simp only [List.map_cons, walk, step, found, Option.bind_some]
      exact ih further
    | _ => cases reached

/-- A path that meets no array on its way goes through objects. -/
theorem walk_eq_reach? {v : Value} {keys : List String}
    (free : ∀ before after items, keys = before ++ after → after ≠ [] →
      v.reach? before ≠ some (.arr items)) :
    walk v (keys.map Segment.plain) = v.reach? keys := by
  induction keys generalizing v with
  | nil => rfl
  | cons key keys ih =>
    cases v with
    | obj fields =>
      simp only [List.map_cons, walk, step, reach?]
      cases found : Dict.get? fields key with
      | none => rfl
      | some u =>
        refine ih fun before after items whole more reached => ?_
        refine free (key :: before) after items (by rw [whole]; rfl) more ?_
        simpa only [reach?, found, Option.bind_some] using reached
    | arr items => exact absurd rfl (free [] _ items rfl (List.cons_ne_nil _ _))
    | _ => rfl

/-- A path that names elements of an array without an index leads nowhere. -/
theorem walk_elements {v : Value} (plain : v.Plain) {key : String} {segs : List String}
    (member : key ++ "[]" ∈ segs) : walk v (segs.map Segment.plain) = none := by
  induction segs generalizing v with
  | nil => cases member
  | cons s segs ih =>
    simp only [List.map_cons, walk]
    obtain here | later := List.mem_cons.1 member
    · subst here
      cases v with
      | obj fields =>
        simp only [step]
        cases found : Dict.get? fields (key ++ "[]") with
        | none => rfl
        | some u => exact absurd (by simp) (plain.get? found).1.unbracketed
      | arr items =>
        simp only [step, index?_elements]
        rfl
      | _ => rfl
    · cases v with
      | obj fields =>
        simp only [step]
        cases found : Dict.get? fields s with
        | none => rfl
        | some u => exact ih (plain.get? found).2 later
      | arr items =>
        cases plain with
        | arr inside =>
          simp only [step]
          cases found : (Segment.index? s).bind fun i => items[i]? with
          | none => rfl
          | some u =>
            obtain ⟨i, _, there⟩ := Option.bind_eq_some_iff.1 found
            exact ih (inside u (List.mem_of_getElem? there)) later
      | _ => rfl

end Path

namespace Infer

/-- A value and the segments behind which it is seen. -/
abbrev Sighting := List String × Value

/-- The same value, seen from the outside. -/
def Sighting.under (seg : String) (o : Sighting) : Sighting := (seg :: o.1, o.2)

mutual

/-- What is seen below a value. -/
def sight : Value → List Sighting
  | .obj fields => sightFields fields
  | _ => []

/-- What is seen at and below the fields of an object. -/
def sightFields : List (String × Value) → List Sighting
  | [] => []
  | (key, v) :: fields => ([key], v) :: sightInside key v ++ sightFields fields

/-- What is seen inside a field. -/
def sightInside (key : String) : Value → List Sighting
  | .obj fields => (sightFields fields).map (Sighting.under key)
  | .arr (v :: _) => (sight v).map (Sighting.under (key ++ "[]"))
  | _ => []

end

/-! ## The segments behind which a value is seen -/

/-- A segment leads into an object or into the first element of an array. -/
def Passes (seg : String) : Prop := Path.IsKey seg ∨ ∃ key, Path.IsKey key ∧ seg = key ++ "[]"

theorem isSegment_elements {key : String} (named : Path.IsKey key) :
    Path.IsSegment (key ++ "[]") where
  ne_empty := by simp
  dotless := by simpa using named.dotless

theorem Passes.isSegment {seg : String} (h : Passes seg) : Path.IsSegment seg := by
  obtain named | ⟨key, named, rfl⟩ := h
  · exact named.toIsSegment
  · exact isSegment_elements named

theorem Passes.ofText {seg : String} (h : Passes seg) : Path.Segment.ofText seg = .plain seg := by
  obtain named | ⟨key, named, rfl⟩ := h
  · exact Path.ofText_key named.unbracketed
  · exact Path.ofText_elements named.unbracketed

mutual

theorem passes_of_mem_sight : ∀ {v : Value}, v.Plain → ∀ o ∈ sight v, o.1 ≠ [] ∧ ∀ s ∈ o.1, Passes s
  | .obj _, plain, o, member => passes_of_mem_sightFields plain o member
  | .null, _, _, member | .bool _, _, _, member | .num _, _, _, member | .str _, _, _, member
  | .arr _, _, _, member => nomatch member

/-- The same for the fields of an object. -/
theorem passes_of_mem_sightFields : ∀ {fields : List (String × Value)},
    (Value.obj fields).Plain → ∀ o ∈ sightFields fields, o.1 ≠ [] ∧ ∀ s ∈ o.1, Passes s
  | [], _, _, member => nomatch member
  | (key, v) :: fields, plain, o, member => by
    obtain ⟨named, first, _, rest⟩ := plain.of_cons
    obtain seen | others := List.mem_append.1 member
    · obtain rfl | inside := List.mem_cons.1 seen
      · exact ⟨List.cons_ne_nil _ _, fun s member => .inl (List.mem_singleton.1 member ▸ named)⟩
      · exact passes_of_mem_sightInside named first o inside
    · exact passes_of_mem_sightFields rest o others

/-- The same inside a field. -/
theorem passes_of_mem_sightInside {key : String} (named : Path.IsKey key) : ∀ {v : Value},
    v.Plain → ∀ o ∈ sightInside key v, o.1 ≠ [] ∧ ∀ s ∈ o.1, Passes s
  | .obj _, plain, _, member => by
    obtain ⟨o, inside, rfl⟩ := List.mem_map.1 member
    have passed := (passes_of_mem_sightFields plain o inside).2
    exact ⟨List.cons_ne_nil _ _, List.forall_mem_cons.2 ⟨.inl named, passed⟩⟩
  | .arr (_ :: _), .arr inside, _, member => by
    obtain ⟨o, seen, rfl⟩ := List.mem_map.1 member
    have passed := (passes_of_mem_sight (inside _ List.mem_cons_self) o seen).2
    exact ⟨List.cons_ne_nil _ _, List.forall_mem_cons.2 ⟨.inr ⟨key, named, rfl⟩, passed⟩⟩
  | .arr [], _, _, member | .null, _, _, member | .bool _, _, _, member | .num _, _, _, member
  | .str _, _, _, member => nomatch member

end

/-! ## Observations are sightings -/

/-- The path that segments make below another path. -/
def pathOf (above : String) (segs : List String) : String := segs.foldl fieldPath above

theorem fieldPath_elements (above key : String) :
    fieldPath above (key ++ "[]") = fieldPath above key ++ "[]" := by
  unfold fieldPath
  split
  · rfl
  · rw [← String.append_assoc]

/-- The observation of what is seen behind segments, below a path. -/
def Sighting.below (above : String) (o : Sighting) : Observation := (pathOf above o.1, o.2)

theorem map_below_under (above seg : String) (os : List Sighting) :
    (os.map (Sighting.under seg)).map (Sighting.below above) =
      os.map (Sighting.below (fieldPath above seg)) := by
  rw [List.map_map]
  rfl

mutual

/-- What is observed below a value is what is seen there, with the paths that segments make. -/
theorem observe_eq_below (above : String) :
    ∀ v : Value, observe above v = (sight v).map (Sighting.below above)
  | .obj fields => observeFields_eq_below above fields
  | .null | .bool _ | .num _ | .str _ | .arr _ => rfl

/-- The same for the fields of an object. -/
theorem observeFields_eq_below (above : String) : ∀ fields : List (String × Value),
    observeFields above fields = (sightFields fields).map (Sighting.below above)
  | [] => rfl
  | (key, v) :: fields => by
    rw [observeFields, sightFields, observeInside_eq_below above key v,
      observeFields_eq_below above fields, List.map_append]
    rfl

/-- The same inside a field. -/
theorem observeInside_eq_below (above key : String) : ∀ v : Value,
    observeInside (fieldPath above key) v = (sightInside key v).map (Sighting.below above)
  | .obj fields => by
    rw [observeInside, sightInside, map_below_under, observeFields_eq_below _ fields]
  | .arr (v :: _) => by
    rw [observeInside, sightInside, map_below_under, fieldPath_elements, observe_eq_below _ v]
  | .arr [] | .null | .bool _ | .num _ | .str _ => rfl

end

/-- The observation of what is seen behind segments, below others. -/
def Sighting.observed (above : List String) (o : Sighting) : Observation :=
  (".".intercalate (above ++ o.1), o.2)

theorem fieldPath_intercalate {above : List String} (named : ∀ s ∈ above, Path.IsSegment s)
    (key : String) : fieldPath (".".intercalate above) key = ".".intercalate (above ++ [key]) := by
  by_cases root : above = []
  · rw [root]
    simp [fieldPath]
  · rw [fieldPath, if_neg (Path.intercalate_ne_empty root named),
      String.intercalate_append_of_ne_nil root (List.cons_ne_nil _ _),
      String.intercalate_singleton]

theorem pathOf_intercalate {above segs : List String} (named : ∀ s ∈ above, Path.IsSegment s)
    (further : ∀ s ∈ segs, Path.IsSegment s) :
    pathOf (".".intercalate above) segs = ".".intercalate (above ++ segs) := by
  induction segs generalizing above with
  | nil => rw [List.append_nil]; rfl
  | cons s segs ih =>
    obtain ⟨own, further⟩ := List.forall_mem_cons.1 further
    have joined := ih (List.forall_mem_append.2 ⟨named, List.forall_mem_singleton.2 own⟩) further
    rw [← fieldPath_intercalate named, List.append_assoc] at joined
    exact joined

/-- What is observed below a plain value is what is seen there, with joined segments as paths. -/
theorem observe_eq {v : Value} {above : List String} (plain : v.Plain)
    (named : ∀ s ∈ above, Path.IsSegment s) :
    observe (".".intercalate above) v = (sight v).map (Sighting.observed above) := by
  rw [observe_eq_below]
  refine List.map_congr_left fun o seen => ?_
  have passes := (passes_of_mem_sight plain o seen).2
  rw [Sighting.below, Sighting.observed,
    pathOf_intercalate named fun s member => (passes s member).isSegment]

/-! ## What is seen behind keys -/

/-- The values that are seen behind given segments. -/
def seenAt (segs : List String) (os : List Sighting) : List Value :=
  (os.filter fun o => o.1 == segs).map Prod.snd

theorem seenAt_append (segs : List String) (os os' : List Sighting) :
    seenAt segs (os ++ os') = seenAt segs os ++ seenAt segs os' := by
  simp [seenAt]

theorem seenAt_under (seg s : String) (segs : List String) (os : List Sighting) :
    seenAt (s :: segs) (os.map (Sighting.under seg)) =
      if seg = s then seenAt segs os else [] := by
  by_cases same : seg = s
  · simp [seenAt, Sighting.under, List.filter_map, Function.comp_def, same]
  · simp [seenAt, Sighting.under, List.filter_map, Function.comp_def, same]

theorem length_seenAt (segs : List String) (os : List Sighting) :
    (seenAt segs os).length = (os.map Prod.fst).count segs := by
  rw [seenAt, List.length_map, List.count, List.countP_map, List.countP_eq_length_filter]
  rfl

theorem mem_seenAt_iff {segs : List String} {os : List Sighting} {v : Value} :
    v ∈ seenAt segs os ↔ (segs, v) ∈ os := by
  simp [seenAt]

theorem seenAt_nil {os : List Sighting} (some : ∀ o ∈ os, o.1 ≠ []) : seenAt [] os = [] := by
  have none : (os.filter fun o => o.1 == []) = [] :=
    List.filter_eq_nil_iff.2 fun o member same => some o member (eq_of_beq same)
  rw [seenAt, none]
  rfl

/-- Something is always seen behind a segment. -/
theorem ne_nil_of_mem_sightInside {key : String} {v : Value} {o : Sighting}
    (seen : o ∈ sightInside key v) : o.1 ≠ [] := by
  unfold sightInside at seen
  split at seen
  · obtain ⟨_, _, rfl⟩ := List.mem_map.1 seen
    exact List.cons_ne_nil _ _
  · obtain ⟨_, _, rfl⟩ := List.mem_map.1 seen
    exact List.cons_ne_nil _ _
  · cases seen

theorem ne_nil_of_mem_sightFields {fields : List (String × Value)} {o : Sighting}
    (seen : o ∈ sightFields fields) : o.1 ≠ [] := by
  induction fields with
  | nil => cases seen
  | cons e fields ih =>
    obtain own | others := List.mem_append.1 seen
    · obtain rfl | inside := List.mem_cons.1 own
      · exact List.cons_ne_nil _ _
      · exact ne_nil_of_mem_sightInside inside
    · exact ih others

/-- A segment that leads into an object only: it does not end like one for elements. -/
def IsField (seg : String) : Prop := ∀ key, seg ≠ key ++ "[]"

theorem isField_of_isKey {key : String} (named : Path.IsKey key) : IsField key := by
  rintro name rfl
  exact named.unbracketed (by simp)

mutual

/-- Behind fields exactly that is seen to which they lead through objects. -/
theorem seenAt_sightFields : ∀ {fields : List (String × Value)}, (Value.obj fields).Once →
    ∀ {key : String} {keys : List String}, (∀ k ∈ key :: keys, IsField k) →
    seenAt (key :: keys) (sightFields fields) = ((Value.obj fields).reach? (key :: keys)).toList
  | [], _, _, _, _ => rfl
  | (name, v) :: fields, once, key, keys, named => by
    obtain ⟨first, new, rest⟩ := once.of_cons
    have inside := seenAt_sightInside name first named
    have others := seenAt_sightFields rest named
    have whole : sightFields ((name, v) :: fields) =
        [([name], v)] ++ (sightInside name v ++ sightFields fields) := rfl
    rw [whole, seenAt_append, seenAt_append, inside, others]
    by_cases same : name = key
    · subst same
      have absent : Dict.get? fields name = none := Dict.get?_eq_none_iff.2 new
      cases keys <;> simp [seenAt, Value.reach?, Dict.get?, absent]
    · simp [seenAt, Value.reach?, Dict.get?, same]

/-- The same inside a field, where nothing is seen behind its own key. -/
theorem seenAt_sightInside (name : String) : ∀ {v : Value}, v.Once →
    ∀ {key : String} {keys : List String}, (∀ k ∈ key :: keys, IsField k) →
    seenAt (key :: keys) (sightInside name v) =
      if name = key ∧ keys ≠ [] then (v.reach? keys).toList else []
  | .obj fields, once, key, keys, named => by
    have further := (List.forall_mem_cons.1 named).2
    rw [sightInside, seenAt_under]
    cases keys with
    | nil => simp [seenAt_nil fun o member => ne_nil_of_mem_sightFields member]
    | cons k keys => simp [seenAt_sightFields once further]
  | .arr (_ :: _), _, key, keys, named => by
    have other : name ++ "[]" ≠ key := (named key List.mem_cons_self name).symm
    rw [sightInside, seenAt_under, if_neg other]
    cases keys <;> simp [Value.reach?]
  | .arr [], _, _, keys, _ | .null, _, _, keys, _ | .bool _, _, _, keys, _
  | .num _, _, _, keys, _ | .str _, _, _, keys, _ => by
    cases keys <;> simp [sightInside, seenAt, Value.reach?]

end

theorem ne_nil_of_mem_sight {v : Value} {o : Sighting} (seen : o ∈ sight v) : o.1 ≠ [] := by
  cases v with
  | obj _ => exact ne_nil_of_mem_sightFields seen
  | _ => cases seen

section

variable {v w : Value} {keys : List String}

theorem seenAt_sight (once : v.Once) (some : keys ≠ []) (fields : ∀ k ∈ keys, IsField k) :
    seenAt keys (sight v) = (v.reach? keys).toList := by
  obtain ⟨key, keys, rfl⟩ := List.exists_cons_of_ne_nil some
  cases v with
  | obj _ => exact seenAt_sightFields once fields
  | _ => rfl

/-- What is seen behind fields only lies at the end of the way through objects. -/
theorem mem_sight_iff (once : v.Once) (fields : ∀ k ∈ keys, IsField k) :
    (keys, w) ∈ sight v ↔ keys ≠ [] ∧ v.reach? keys = some w := by
  by_cases empty : keys = []
  · exact iff_of_false (fun seen => ne_nil_of_mem_sight seen empty) fun reached => reached.1 empty
  · rw [and_iff_right empty, ← mem_seenAt_iff, seenAt_sight once empty fields, Option.mem_toList]

end

end Infer

end DataMigration
