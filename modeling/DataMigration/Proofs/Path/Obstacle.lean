import DataMigration.Proofs.Path.Places

/-!
# What stands in the way of a write

A write goes through what is there and makes what is missing. What it makes is as the path wants
it, so only a value that was there before can stop a write: one that a parent segment leads to and
that is no object, or one that the name of an index leads to and that is no array. The error names
the segment, and the object stays as it was.
-/

namespace DataMigration.Path

/-- The places that a write walks through for segments with these texts. -/
def placesOf (texts : List String) : List Place :=
  (texts.map Segment.ofText).flatMap Segment.places

/-- A value that stands in the way of a write along segments, with the error that tells of it. -/
inductive Obstacle (path : String) (texts : List String) (fields : Dict Value) : PathError → Prop
  /-- A parent segment leads to a value that is no object. -/
  | parent (before : List String) {after : List String} {text : String} {u : Value}
      (whole : texts = before ++ text :: after) (further : after ≠ [])
      (met : at? (.obj fields) (placesOf before ++ (Segment.ofText text).places) = some u)
      (something : u ≠ .null) (other : u.asFields? = none) :
      Obstacle path texts fields (.notAnObject path text)
  /-- The name of an index leads to a value that is no array. -/
  | named (before : List String) {after : List String} {text name : String} {i : Nat} {u : Value}
      (whole : texts = before ++ text :: after) (index : Segment.ofText text = .indexed name i)
      (met : at? (.obj fields) (placesOf before ++ [.key name]) = some u)
      (something : u ≠ .null) (other : u.asItems? = none) :
      Obstacle path texts fields (.notAnArray path name)

section

variable {path text : String} {fields : Dict Value} {e : PathError} {v : Value}
  {f : Value → Changed PathError Value}

/-! ## One level down -/

theorem inObject_error_eq_some_iff {f : Dict Value → Changed PathError (Dict Value)}
    (sound : Sound [] f) : (inObject path text f v).error = some e ↔
      (v ≠ .null ∧ v.asFields? = none ∧ e = .notAnObject path text) ∨
        ∃ inner, v = .obj inner ∧ (f inner).error = some e := by
  cases v with
  | null => simp [inObject, sound.fresh]
  | obj fields => simp [inObject, Value.asFields?]
  | _ => simp [inObject, Value.asFields?, eq_comm]

/-- What is missing counts as null, and on null a change goes through. -/
theorem getD_error_eq_some_iff (sound : Sound .null f) {found : Option Value} :
    (f (found.getD .null)).error = some e ↔ ∃ u, found = some u ∧ (f u).error = some e := by
  cases found with
  | none => simp [sound.fresh]
  | some u => simp

theorem atField_error_eq_some_iff (sound : Sound .null f) {name : String} :
    (atField f name fields).error = some e ↔
      ∃ u, Dict.get? fields name = some u ∧ (f u).error = some e :=
  getD_error_eq_some_iff sound

theorem inArray_atIndex_error_eq_some_iff (sound : Sound .null f) {name : String} {i : Nat} :
    (inArray path name (atIndex f i) v).error = some e ↔
      (v ≠ .null ∧ v.asItems? = none ∧ e = .notAnArray path name) ∨
        ∃ u, inside? v (.item i) = some u ∧ (f u).error = some e := by
  cases v with
  | null => simp [inArray, (sound.atIndex i).fresh, inside?]
  | arr items =>
    simp only [inArray, atIndex, Changed.map_error, padded_getD, getD_error_eq_some_iff sound]
    simp [Value.asItems?, inside?]
  | _ => simp [inArray, Value.asItems?, inside?, eq_comm]

theorem atPlace_error_eq_some_iff (sound : Sound .null f) {s : Segment} :
    (atPlace path f s fields).error = some e ↔
      (∃ name i u, s = .indexed name i ∧ Dict.get? fields name = some u ∧ u ≠ .null ∧
        u.asItems? = none ∧ e = .notAnArray path name) ∨
      ∃ u, at? (.obj fields) s.places = some u ∧ (f u).error = some e := by
  cases s with
  | plain name | unindexable name =>
    refine (atField_error_eq_some_iff sound).trans ?_
    simp only [Segment.places, at?_singleton, reduceCtorEq, false_and, exists_false, false_or]
    rfl
  | indexed name i =>
    refine (atField_error_eq_some_iff ((sound.atIndex i).inArray path name)).trans ?_
    simp only [inArray_atIndex_error_eq_some_iff sound]
    constructor
    · rintro ⟨u, found, ⟨something, other, rfl⟩ | ⟨w, element, stopped⟩⟩
      · exact .inl ⟨name, i, u, rfl, found, something, other, rfl⟩
      · exact .inr ⟨w, (congrArg (Option.bind · _) found).trans ((at?_singleton u _).trans element),
          stopped⟩
    · rintro (⟨_, _, u, same, found, something, other, rfl⟩ | ⟨w, met, stopped⟩)
      · cases same
        exact ⟨u, found, .inl ⟨something, other, rfl⟩⟩
      · obtain ⟨u, found, element⟩ := Option.bind_eq_some_iff.1 met
        exact ⟨u, found, .inr ⟨w, (at?_singleton u _).symm.trans element, stopped⟩⟩

/-! ## The whole way -/

theorem placesOf_concat (texts : List String) (text : String) :
    placesOf (texts ++ [text]) = placesOf texts ++ (Segment.ofText text).places := by
  simp [placesOf]

/-- The places of a segment start with a key. -/
theorem Segment.places_eq_cons (s : Segment) : ∃ name ps, s.places = .key name :: ps := by
  cases s with
  | plain name | unindexable name => exact ⟨name, [], rfl⟩
  | indexed name i => exact ⟨name, [.item i], rfl⟩

theorem obj_of_at?_key {name : String} {ps : List Place} {u : Value}
    (met : at? v (.key name :: ps) = some u) : ∃ inner, v = .obj inner := by
  cases v with
  | obj inner => exact ⟨inner, rfl⟩
  | _ => cases met

/-- A walk along segments and on from a key leads through an object after the first segment. -/
theorem at?_placesOf_cons_iff {texts : List String} {ps : List Place} {u : Value}
    (key : ∃ name qs, ps = .key name :: qs) :
    at? v (placesOf (text :: texts) ++ ps) = some u ↔
      ∃ inner, at? v (Segment.ofText text).places = some (.obj inner) ∧
        at? (.obj inner) (placesOf texts ++ ps) = some u := by
  have starts : ∃ name qs, placesOf texts ++ ps = .key name :: qs := by
    cases texts with
    | nil => exact key
    | cons next texts =>
      obtain ⟨name, qs, head⟩ := (Segment.ofText next).places_eq_cons
      exact ⟨name, qs ++ placesOf texts ++ ps, congrArg (· ++ placesOf texts ++ ps) head⟩
  have whole : placesOf (text :: texts) = (Segment.ofText text).places ++ placesOf texts := rfl
  rw [whole, List.append_assoc, at?_append, Option.bind_eq_some_iff]
  constructor
  · rintro ⟨w, first, met⟩
    obtain ⟨name, qs, head⟩ := starts
    obtain ⟨inner, rfl⟩ := obj_of_at?_key (head ▸ met)
    exact ⟨inner, first, met⟩
  · rintro ⟨inner, first, met⟩
    exact ⟨.obj inner, first, met⟩

/-- What is in the way is in the way of the first segment, or of the others in the object that the
first one leads to. -/
theorem obstacle_cons_iff {rest : List String} :
    Obstacle path (text :: rest) fields e ↔
      (∃ name i u, Segment.ofText text = .indexed name i ∧ Dict.get? fields name = some u ∧
        u ≠ .null ∧ u.asItems? = none ∧ e = .notAnArray path name) ∨
      ∃ u, at? (.obj fields) (Segment.ofText text).places = some u ∧
        ((rest ≠ [] ∧ u ≠ .null ∧ u.asFields? = none ∧ e = .notAnObject path text) ∨
          ∃ inner, u = .obj inner ∧ Obstacle path rest inner e) := by
  constructor
  · rintro (@⟨before, after, text', u, whole, further, met, something, other⟩ |
      @⟨before, after, text', name, i, u, whole, index, met, something, other⟩)
    -- nothing is before the obstacle, or the first segment is
    · cases before with
      | nil =>
        obtain ⟨rfl, rfl⟩ := List.cons.inj whole
        exact .inr ⟨u, met, .inl ⟨further, something, other, rfl⟩⟩
      | cons _ before =>
        obtain ⟨rfl, rfl⟩ := List.cons.inj whole
        obtain ⟨inner, first, met⟩ := (at?_placesOf_cons_iff (Segment.places_eq_cons _)).1 met
        exact .inr ⟨_, first, .inr ⟨inner, rfl, .parent before rfl further met something other⟩⟩
    · cases before with
      | nil =>
        obtain ⟨rfl, rfl⟩ := List.cons.inj whole
        exact .inl ⟨name, i, u, index, (at?_singleton _ _).symm.trans met, something, other, rfl⟩
      | cons _ before =>
        obtain ⟨rfl, rfl⟩ := List.cons.inj whole
        obtain ⟨inner, first, met⟩ := (at?_placesOf_cons_iff ⟨name, [], rfl⟩).1 met
        exact .inr ⟨_, first, .inr ⟨inner, rfl, .named before rfl index met something other⟩⟩
  · rintro (⟨name, i, u, index, found, something, other, rfl⟩ |
      ⟨_, first, ⟨further, something, other, rfl⟩ | ⟨inner, rfl, obstacle⟩⟩)
    · exact .named [] rfl index ((at?_singleton _ _).trans found) something other
    · exact .parent [] rfl further first something other
    · cases obstacle with
      | parent before whole further met something other =>
        exact .parent (text :: before) (congrArg (text :: ·) whole) further
          ((at?_placesOf_cons_iff (Segment.places_eq_cons _)).2 ⟨inner, first, met⟩)
          something other
      | named before whole index met something other =>
        exact .named (text :: before) (congrArg (text :: ·) whole) index
          ((at?_placesOf_cons_iff ⟨_, [], rfl⟩).2 ⟨inner, first, met⟩) something other

theorem writeAlong_error_eq_some_iff {w : Value} {texts : List String} (some : texts ≠ []) :
    (writeAlong path w texts fields).error = .some e ↔ Obstacle path texts fields e := by
  induction texts generalizing fields with
  | nil => exact absurd rfl some
  | cons text rest ih =>
    cases rest with
    | nil =>
      -- the last segment is no parent, so only its own name can meet something
      have none : ∀ inner, ¬ Obstacle path [] inner e := by
        rintro inner (⟨_, whole, _⟩ | ⟨_, whole, _⟩) <;> simp at whole
      refine (atPlace_error_eq_some_iff (sound_assign w)).trans ?_
      simp [obstacle_cons_iff, none]
    | cons next rest =>
      have inner : Sound [] (writeAlong path w (next :: rest)) :=
        sound_writeAlong path w (List.cons_ne_nil next rest)
      refine (atPlace_error_eq_some_iff (inner.inObject path text)).trans ?_
      simp only [obstacle_cons_iff, inObject_error_eq_some_iff inner,
        ih (List.cons_ne_nil next rest), ne_eq, reduceCtorEq, not_false_eq_true, true_and]

/-- The error of a write tells of what is in its way. -/
theorem write_error_eq_some_iff {w : Value} (nonempty : path ≠ "") :
    (write fields path w).error = some e ↔ Obstacle path (Text.split '.' path) fields e := by
  rw [write, if_neg nonempty]
  exact writeAlong_error_eq_some_iff (mt List.map_eq_nil_iff.1 (Text.splitAt_ne_nil _ _))

end

/-- A write stops exactly if the path is empty, if parent segments lead to a value that is neither
null nor an object, or if the name of an index leads to one that is neither null nor an array. A
write that stops leaves the object as it was. -/
theorem write_stops_iff (fields : Dict Value) (path : String) (v : Value) :
    ((∃ e, (write fields path v).error = some e) ↔
      path = "" ∨
      (∃ parents rest u, Text.split '.' path = parents ++ rest ∧ rest ≠ [] ∧
        at? (.obj fields) (placesOf parents) = some u ∧ u ≠ .null ∧ u.asFields? = none) ∨
      ∃ before text after name i u, Text.split '.' path = before ++ text :: after ∧
        Segment.ofText text = .indexed name i ∧
        at? (.obj fields) (placesOf before ++ [.key name]) = some u ∧ u ≠ .null ∧
        u.asItems? = none) ∧
    ∀ e, (write fields path v).error = some e → (write fields path v).value = fields := by
  refine ⟨?_, fun e stopped => write_value_of_error (stopped ▸ Option.some_ne_none e)⟩
  by_cases empty : path = ""
  · subst empty
    exact iff_of_true ⟨.emptyPath, rfl⟩ (.inl rfl)
  simp only [write_error_eq_some_iff empty, or_iff_right empty]
  constructor
  · rintro ⟨_, @⟨before, after, text, u, whole, further, met, something, other⟩ |
      ⟨before, whole, index, met, something, other⟩⟩
    · refine .inl ⟨before ++ [text], after, u, ?_, further, ?_, something, other⟩
      · rw [whole, List.append_assoc]
        rfl
      · rw [placesOf_concat]
        exact met
    · exact .inr ⟨before, _, _, _, _, _, whole, index, met, something, other⟩
  · rintro (⟨parents, rest, u, whole, further, met, something, other⟩ |
      ⟨before, text, after, name, i, u, whole, index, met, something, other⟩)
    · obtain rfl | ⟨before, text, rfl⟩ := parents.eq_nil_or_concat
      · cases met
        cases other
      · rw [List.concat_eq_append] at whole met
        rw [List.append_assoc] at whole
        rw [placesOf_concat] at met
        exact ⟨_, .parent before whole further met something other⟩
    · exact ⟨_, .named before whole index met something other⟩

/-- An address that is a text stands in the way of a list of addresses. -/
theorem addresses_write_stops :
    let fields := [("contacts", Value.arr [.null, .obj [("email", .str "ann@x.org")]])]
    let done := write fields "contacts[1].email[0]" (.str "bob@x.org")
    (∃ e, done.error = some e) ∧ done.value = fields := by
  intro fields done
  obtain ⟨stops, kept⟩ := write_stops_iff fields "contacts[1].email[0]" (.str "bob@x.org")
  have stopped : ∃ e, done.error = some e := stops.2 <| .inr <| .inr
    ⟨["contacts[1]"], "email[0]", [], "email", 0, .str "ann@x.org", by decide +kernel,
      by decide +kernel, by decide +kernel, by decide, rfl⟩
  obtain ⟨e, error⟩ := stopped
  exact ⟨⟨e, error⟩, kept e error⟩

end DataMigration.Path
