import DataMigration.Path.Lookup
import DataMigration.Proofs.Dict
import DataMigration.Proofs.Path.Write

/-!
# Places in a value

A path leads from place to place, each of them a key of an object or an index of an array. A write
comes through when the containers on its way are those that its places ask for, and then it plants
its value: below its places there is that value, above them there are containers, and everywhere
else is what was there before. A path is read along one of several walks, since a name may be a key
or an index.
-/

namespace DataMigration.Path

/-- A step from a value to one that it holds. -/
inductive Place where
  | key (name : String)
  | item (index : Nat)
  deriving DecidableEq

/-- The value that a value holds at a place. -/
def inside? (v : Value) : Place → Option Value
  | .key name => v.member? name
  | .item i =>
    match v with
    | .arr items => items[i]?
    | _ => none

/-- The value at the end of a walk from place to place. -/
def at? (v : Value) : List Place → Option Value
  | [] => some v
  | p :: ps => (inside? v p).bind fun w => at? w ps

/-- The value at the end of a walk, unless it is missing or null. -/
def found? (v : Value) (ps : List Place) : Option Value := Value.present (at? v ps)

theorem at?_append (v : Value) (ps qs : List Place) :
    at? v (ps ++ qs) = (at? v ps).bind fun w => at? w qs := by
  induction ps generalizing v with
  | nil => rfl
  | cons p ps ih =>
    simp only [List.cons_append, at?]
    cases inside? v p with
    | none => rfl
    | some w => exact ih w

theorem at?_singleton (v : Value) (p : Place) : at? v [p] = inside? v p :=
  Option.bind_fun_some _

theorem found?_null (ps : List Place) : found? .null ps = none := by
  cases ps with
  | nil => rfl
  | cons p ps => cases p <;> rfl

/-- For what is found, a place that is missing is as good as one that holds null. -/
theorem found?_cons (v : Value) (p : Place) (ps : List Place) :
    found? v (p :: ps) = found? ((inside? v p).getD .null) ps := by
  cases inside : inside? v p with
  | none =>
    rw [Option.getD_none, found?_null, found?, at?, inside]
    rfl
  | some w =>
    rw [Option.getD_some, found?, at?, inside]
    rfl

/-! ## Planting a value -/

/-- The fields of an object; any other value counts as an empty one. -/
def fields : Value → Dict Value
  | .obj fields => fields
  | _ => []

/-- The items of an array; any other value counts as an empty one. -/
def items : Value → List Value
  | .arr items => items
  | _ => []

theorem padded_getD (items : List Value) (i j : Nat) :
    (padded items i)[j]?.getD .null = items[j]?.getD .null := by
  obtain inside | outside := Nat.lt_or_ge j items.length
  · rw [padded, List.getElem?_append_left inside]
  · rw [padded, List.getElem?_append_right outside, List.getElem?_replicate,
      List.getElem?_eq_none outside]
    split <;> rfl

theorem lt_length_padded (items : List Value) (i : Nat) : i < (padded items i).length := by
  rw [padded, List.length_append, List.length_replicate]
  omega

theorem inside?_key (v : Value) (name : String) :
    inside? v (.key name) = Dict.get? (fields v) name := by
  cases v <;> rfl

/-- A value with `w` at the end of a walk, and with new containers on the way where there are
none. -/
def plant (w : Value) : List Place → Value → Value
  | [], _ => w
  | .key name :: ps, v =>
    .obj (Dict.put (fields v) name (plant w ps ((inside? v (.key name)).getD .null)))
  | .item i :: ps, v =>
    .arr ((padded (items v) i).set i (plant w ps ((inside? v (.item i)).getD .null)))

/-- The containers on a walk are those that its places ask for, as far as there are any. -/
inductive Fits : List Place → Value → Prop
  | nil (v : Value) : Fits [] v
  | null (ps : List Place) : Fits ps .null
  | key {name : String} {ps : List Place} {fields : Dict Value}
      (further : Fits ps ((Dict.get? fields name).getD .null)) :
      Fits (.key name :: ps) (.obj fields)
  | item {i : Nat} {ps : List Place} {items : List Value}
      (further : Fits ps (items[i]?.getD .null)) : Fits (.item i :: ps) (.arr items)

theorem Fits.inside {p : Place} {ps : List Place} {v : Value} (fits : Fits (p :: ps) v) :
    Fits ps ((inside? v p).getD .null) := by
  cases fits with
  | null => cases p <;> exact .null ps
  | key further => exact further
  | item further => exact further

/-- A change that plants a value where its places fit, and stops where they do not. -/
structure Plants (w : Value) (ps : List Place) (f : Value → Changed PathError Value) : Prop where
  goes : ∀ {v}, Fits ps v → f v = { value := plant w ps v }
  stops : ∀ {v}, ¬ Fits ps v → (f v).error ≠ none

namespace Plants

variable {w : Value} {ps : List Place} {f : Value → Changed PathError Value}

theorem assign (w : Value) : Plants w [] fun _ => { value := w } where
  goes _ := rfl
  stops misfit := absurd (.nil _) misfit

theorem inField (plants : Plants w ps f) (path text name : String) :
    Plants w (.key name :: ps) (inObject path text (atField f name)) where
  goes {v} fits := by
    have further := plants.goes fits.inside
    cases fits with
    | null =>
      have there : f .null = { value := plant w ps .null } := further
      simp only [inObject, atField, Dict.get?_nil, Option.getD_none, there]
      rfl
    | @key _ _ fields _ =>
      have there : f ((Dict.get? fields name).getD .null) = _ := further
      simp only [inObject, atField, there]
      rfl
  stops {v} misfit := by
    cases v with
    | null => exact absurd (.null _) misfit
    | obj fields => exact plants.stops fun fits => misfit (.key fits)
    | _ => exact Option.some_ne_none _

theorem inItem (plants : Plants w ps f) (path name : String) (i : Nat) :
    Plants w (.item i :: ps) (inArray path name (atIndex f i)) where
  goes {v} fits := by
    have further := plants.goes fits.inside
    cases fits with
    | null =>
      have there : f .null = { value := plant w ps .null } := further
      simp only [inArray, atIndex, padded_getD, List.getElem?_nil, Option.getD_none, there]
      rfl
    | @item _ _ items _ =>
      have there : f (items[i]?.getD .null) = _ := further
      simp only [inArray, atIndex, padded_getD, there]
      rfl
  stops {v} misfit := by
    cases v with
    | null => exact absurd (.null _) misfit
    | arr items =>
      have there : ¬ Fits ps (items[i]?.getD .null) := fun fits => misfit (.item fits)
      simp only [inArray, atIndex, padded_getD, Changed.map_error]
      exact plants.stops there
    | _ => exact Option.some_ne_none _

end Plants

/-! ## What a planted value leaves -/

section

variable {w v : Value} {p : Place} {ps qs : List Place}

theorem inside?_plant (w : Value) (p : Place) (ps : List Place) (v : Value) :
    inside? (plant w (p :: ps) v) p = some (plant w ps ((inside? v p).getD .null)) := by
  cases p with
  | key name => exact (Dict.get?_put _ _ _ _).trans (if_pos rfl)
  | item i => exact List.getElem?_set_self (lt_length_padded _ _)

/-- Beside the place that changes, at most null comes where nothing was. -/
theorem inside?_plant_of_ne {q : Place} (fits : Fits (p :: ps) v) (other : q ≠ p) :
    (inside? (plant w (p :: ps) v) q).getD .null = (inside? v q).getD .null := by
  cases p with
  | key name =>
    cases q with
    | item j => cases fits <;> rfl
    | key name' =>
      have apart : name' ≠ name := fun same => other (congrArg Place.key same)
      refine congrArg (Option.getD · Value.null) ((Dict.get?_put _ _ _ _).trans ?_)
      rw [if_neg apart]
      cases fits <;> rfl
  | item i =>
    cases q with
    | key name' => cases fits <;> rfl
    | item j =>
      have apart : i ≠ j := fun same => other (congrArg Place.item same.symm)
      refine (congrArg (Option.getD · Value.null) (List.getElem?_set_ne apart)).trans ?_
      rw [padded_getD]
      cases fits <;> rfl

/-- On its way, a planted value stands in what was there. -/
theorem at?_plant_append (w : Value) (ps qs : List Place) (v : Value) :
    at? (plant w (ps ++ qs) v) ps = some (plant w qs ((at? v ps).getD .null)) := by
  induction ps generalizing v with
  | nil => rfl
  | cons p ps ih =>
    rw [List.cons_append, at?, inside?_plant, Option.bind_some, ih, at?]
    cases inside? v p with
    | none => cases ps with
      | nil => rfl
      | cons p' ps => cases p' <;> rfl
    | some u => rfl

/-- At the end of its way is the planted value. -/
theorem found?_plant_below (w : Value) (ps qs : List Place) (v : Value) :
    found? (plant w ps v) (ps ++ qs) = found? w qs := by
  have there : at? (plant w (ps ++ []) v) ps = some w := at?_plant_append w ps [] v
  rw [List.append_nil] at there
  rw [found?, at?_append, there]
  rfl

theorem plant_ne_null (some : ps ≠ []) : plant w ps v ≠ .null := by
  cases ps with
  | nil => exact absurd rfl some
  | cons p ps => cases p <;> exact Value.noConfusion

/-- On the way to a planted value there is something. -/
theorem found?_plant_above (below : qs ≠ []) :
    (found? (plant w (ps ++ qs) v) ps).isSome = true := by
  have there := at?_plant_append w ps qs v
  exact Option.isSome_iff_exists.2
    ⟨_, Value.present_eq_some_iff.2 ⟨there, plant_ne_null below⟩⟩

/-- Beside its way, a planted value changes nothing. -/
theorem found?_plant_beside (fits : Fits ps v) (above : ¬ qs <+: ps) (below : ¬ ps <+: qs) :
    found? (plant w ps v) qs = found? v qs := by
  induction ps generalizing v qs with
  | nil => exact absurd (List.nil_prefix) below
  | cons p ps ih =>
    cases qs with
    | nil => exact absurd (List.nil_prefix) above
    | cons q qs =>
      rw [found?_cons, found?_cons v]
      by_cases same : q = p
      · subst same
        rw [inside?_plant, Option.getD_some]
        exact ih fits.inside (fun h => above (List.cons_prefix_cons.2 ⟨rfl, h⟩))
          (fun h => below (List.cons_prefix_cons.2 ⟨rfl, h⟩))
      · rw [inside?_plant_of_ne fits same]

end

/-! ## Writes -/

/-- The places that a write walks through for a segment. -/
def Segment.places : Segment → List Place
  | .plain name => [.key name]
  | .indexed name i => [.key name, .item i]
  | .unindexable text => [.key text]

/-- The places that a write walks through. -/
def places (path : String) : List Place := (segments path).flatMap Segment.places

section

variable {w : Value} {ps : List Place}

theorem Plants.atPlace {f : Value → Changed PathError Value} (plants : Plants w ps f)
    (path text : String) (s : Segment) :
    Plants w (s.places ++ ps) (inObject path text (atPlace path f s)) := by
  cases s with
  | plain name => exact plants.inField path text name
  | unindexable name => exact plants.inField path text name
  | indexed name i => exact (plants.inItem path name i).inField path text name

theorem plants_writeAlong (path text : String) (w : Value) {texts : List String}
    (some : texts ≠ []) :
    Plants w ((texts.map Segment.ofText).flatMap Segment.places)
      (inObject path text (writeAlong path w texts)) := by
  induction texts generalizing text with
  | nil => exact absurd rfl some
  | cons first rest ih =>
    cases rest with
    | nil => exact (Plants.assign w).atPlace path text (Segment.ofText first)
    | cons next rest =>
      exact (ih first (List.cons_ne_nil next rest)).atPlace path text (Segment.ofText first)

theorem plants_write (w : Value) {path : String} (named : path ≠ "") :
    Plants w (places path) (inObject path path (writeAlong path w (Text.split '.' path))) := by
  have whole : places path =
      ((Text.split '.' path).map Segment.ofText).flatMap Segment.places := by
    rw [places, segments, if_neg named]
  rw [whole]
  exact plants_writeAlong path path w (mt List.map_eq_nil_iff.1 (Text.splitAt_ne_nil _ _))

/-- A write that comes through plants its value. -/
theorem write_eq_plant {fields : Dict Value} {path : String} (named : path ≠ "")
    (fits : Fits (places path) (.obj fields)) :
    (write fields path w).map Value.obj = { value := plant w (places path) (.obj fields) } := by
  rw [write, if_neg named]
  exact (plants_write w named).goes fits

/-- A write comes through where the containers on its way fit. -/
theorem write_error_eq_none_iff {fields : Dict Value} {path : String} :
    (write fields path w).error = none ↔ path ≠ "" ∧ Fits (places path) (.obj fields) := by
  constructor
  · intro through
    have named : path ≠ "" := by
      rintro rfl
      cases through
    refine ⟨named, not_not.1 fun misfit => (plants_write w named).stops misfit ?_⟩
    rw [write, if_neg named] at through
    exact through
  · rintro ⟨named, fits⟩
    exact congrArg Changed.error (write_eq_plant named fits)

theorem obj_write_value {fields : Dict Value} {path : String}
    (through : (write fields path w).error = none) :
    .obj (write fields path w).value = plant w (places path) (.obj fields) := by
  obtain ⟨named, fits⟩ := write_error_eq_none_iff.1 through
  exact congrArg Changed.value (write_eq_plant named fits)

end

/-! ## Reads -/

/-- The walks that a segment may stand for when a path is read. -/
def Segment.readings : Segment → List (List Place)
  | .plain name => [.key name] :: (index? name).toList.map fun i => [.item i]
  | .indexed name i => [[.key name, .item i]]
  | .unindexable _ => []

/-- The walks that segments may stand for. -/
def readings : List Segment → List (List Place)
  | [] => [[]]
  | s :: rest => s.readings.flatMap fun ps => (readings rest).map (ps ++ ·)

/-- The walks that a path may stand for; the empty path stands for none. -/
def walks (path : String) : List (List Place) :=
  if path = "" then [] else readings (segments path)

theorem cons_mem_readings_iff {seg : Segment} {segs : List Segment} {ps : List Place} :
    ps ∈ readings (seg :: segs) ↔
      ∃ own ∈ seg.readings, ∃ others ∈ readings segs, own ++ others = ps := by
  simp [readings]

theorem mem_readings_append_iff {before after : List Segment} {ps : List Place} :
    ps ∈ readings (before ++ after) ↔
      ∃ own ∈ readings before, ∃ others ∈ readings after, own ++ others = ps := by
  induction before generalizing ps with
  | nil => simp [readings]
  | cons seg before ih =>
    simp only [List.cons_append, cons_mem_readings_iff, ih]
    constructor
    · rintro ⟨own, first, _, ⟨own', next, others, rest, rfl⟩, rfl⟩
      exact ⟨own ++ own', ⟨own, first, own', next, rfl⟩, others, rest, List.append_assoc _ _ _⟩
    · rintro ⟨_, ⟨own, first, own', next, rfl⟩, others, rest, rfl⟩
      exact ⟨own, first, _, ⟨own', next, others, rest, rfl⟩, (List.append_assoc _ _ _).symm⟩

section

variable {v w : Value}

theorem step_eq_some_iff {s : Segment} :
    step v s = some w ↔ ∃ ps ∈ s.readings, at? v ps = some w := by
  cases s with
  | unindexable text => simp [step, Segment.readings]
  | indexed name i =>
    simp only [step, Segment.readings, List.mem_singleton, exists_eq_left, at?, inside?]
    cases v.member? name with
    | none => simp
    | some u => cases u <;> simp
  | plain name =>
    simp only [step, Segment.readings, List.exists_mem_cons_iff, List.mem_map, Option.mem_toList,
      exists_exists_and_eq_and, at?_singleton]
    cases v <;> simp [inside?, Value.member?, Option.bind_eq_some_iff]

theorem walk_eq_some_iff {segs : List Segment} :
    walk v segs = some w ↔ ∃ ps ∈ readings segs, at? v ps = some w := by
  induction segs generalizing v with
  | nil => simp [walk, readings, at?]
  | cons s rest ih =>
    simp only [walk, readings, Option.bind_eq_some_iff, step_eq_some_iff, ih, List.mem_flatMap,
      List.mem_map]
    constructor
    · rintro ⟨u, ⟨ps, first, there⟩, qs, others, further⟩
      exact ⟨ps ++ qs, ⟨ps, first, qs, others, rfl⟩, by rw [at?_append, there]; exact further⟩
    · rintro ⟨_, ⟨ps, first, qs, others, rfl⟩, there⟩
      rw [at?_append] at there
      obtain ⟨u, there, further⟩ := Option.bind_eq_some_iff.1 there
      exact ⟨u, ⟨ps, first, there⟩, qs, others, further⟩

/-- A path finds what one of its walks finds. -/
theorem lookup_eq_some_iff {path : String} :
    lookup v path = some w ↔ ∃ ps ∈ walks path, found? v ps = some w := by
  have present : Value.present (walk v (segments path)) = some w ↔
      ∃ ps ∈ readings (segments path), found? v ps = some w := by
    simp only [found?, Value.present_eq_some_iff, walk_eq_some_iff]
    exact ⟨fun ⟨⟨ps, member, there⟩, other⟩ => ⟨ps, member, there, other⟩,
      fun ⟨ps, member, there, other⟩ => ⟨⟨ps, member, there⟩, other⟩⟩
  unfold lookup walks
  by_cases named : path = ""
  · simp [segments, named]
  · rw [if_neg named, ← present]
    split
    · rename_i empty
      rw [segments, if_neg named] at empty
      exact absurd (List.map_eq_nil_iff.1 empty)
        (mt List.map_eq_nil_iff.1 (Text.splitAt_ne_nil _ _))
    · rename_i segs
      rw [segs]

/-- Only a segment that gives no index stands for no walk. -/
theorem readings_eq_nil_iff {segs : List Segment} :
    readings segs = [] ↔ ∃ text, Segment.unindexable text ∈ segs := by
  induction segs with
  | nil => simp [readings]
  | cons s rest ih =>
    have first : s.readings = [] ↔ ∃ text, s = .unindexable text := by
      cases s <;> simp [Segment.readings]
    have none : readings (s :: rest) = [] ↔ s.readings = [] ∨ readings rest = [] := by
      simp only [readings, List.flatMap_eq_nil_iff, List.map_eq_nil_iff]
      constructor
      · intro all
        by_contra some
        obtain ⟨ps, member⟩ := List.exists_mem_of_ne_nil _ (fun h => some (.inl h))
        exact some (.inr (all ps member))
      · rintro (none | none) ps member
        · exact absurd member (none ▸ List.not_mem_nil)
        · exact none
    rw [none, first, ih]
    simp [List.mem_cons, exists_or, eq_comm]

end

end DataMigration.Path
