import DataMigration.Proofs.Path.Bracketed
import DataMigration.Proofs.Path.Obstacle

/-!
# Reading after a write

A path that was written is read along the places of the write, and finds what was written there;
only a segment whose brackets hold no index that a machine can hold is a key for the writer and a
dead end for the reader. A path that diverges from the written one is read along places beside
it, and finds what it found before.
-/

namespace DataMigration

namespace Path

section

variable {path : String} {v : Value}

/-- Where every index is one, a path may be read along the places that a write walks through. -/
theorem places_mem_readings {segs : List Segment}
    (indexed : ∀ text, Segment.unindexable text ∉ segs) :
    segs.flatMap Segment.places ∈ readings segs := by
  induction segs with
  | nil => exact List.mem_singleton_self _
  | cons s rest ih =>
    have others := ih fun text member => indexed text (List.mem_cons_of_mem s member)
    have first : s.places ∈ s.readings := by
      cases s with
      | plain name => exact List.mem_cons_self
      | indexed name i => exact List.mem_cons_self
      | unindexable text => exact absurd List.mem_cons_self (indexed text)
    exact cons_mem_readings_iff.2 ⟨s.places, first, _, others, rfl⟩

theorem lookup_eq_none_of_walks (none : walks path = []) : lookup v path = .none :=
  Option.eq_none_iff_forall_ne_some.2 fun u found => by
    obtain ⟨ps, member, _⟩ := lookup_eq_some_iff.1 found
    rw [none] at member
    cases member

theorem walks_eq_nil_iff (nonempty : path ≠ "") :
    walks path = [] ↔ ∃ text ∈ Text.split '.' path, GivesNoIndex text := by
  rw [walks, if_neg nonempty, readings_eq_nil_iff, segments, if_neg nonempty]
  simp only [List.mem_map, ← ofText_eq_unindexable_iff]
  constructor
  · rintro ⟨t, text, member, same⟩
    exact ⟨text, member, t, same⟩
  · rintro ⟨text, member, t, same⟩
    exact ⟨t, text, member, same⟩

/-- The walk of a writer is one of the walks that a reader takes. -/
theorem lookup_written {fields : Dict Value} (something : v ≠ .null)
    (through : (write fields path v).error = none)
    (alive : ¬ ∃ text ∈ Text.split '.' path, GivesNoIndex text) :
    lookup (.obj (write fields path v).value) path = some v := by
  obtain ⟨nonempty, _⟩ := write_error_eq_none_iff.1 through
  have readable : places path ∈ walks path := by
    rw [← walks_eq_nil_iff nonempty, walks, if_neg nonempty, readings_eq_nil_iff] at alive
    rw [walks, if_neg nonempty]
    exact places_mem_readings (not_exists.1 alive)
  have there : found? (.obj (write fields path v).value) (places path) = some v := by
    have below := found?_plant_below v (places path) [] (.obj fields)
    rw [List.append_nil] at below
    rw [obj_write_value through, below]
    exact Value.present_eq_some_iff.2 ⟨rfl, something⟩
  exact lookup_eq_some_iff.2 ⟨places path, readable, there⟩

end

/-- What was written is read back unless a segment of the path gives no index; then nothing is
read. -/
theorem written_read_back_iff {fields : Dict Value} {path : String} {v : Value}
    (something : v ≠ .null) (through : (write fields path v).error = none) :
    let after := Value.obj (write fields path v).value
    (lookup after path = some v ↔ ¬ ∃ text ∈ Text.split '.' path, GivesNoIndex text) ∧
      ((∃ text ∈ Text.split '.' path, GivesNoIndex text) → lookup after path = none) := by
  intro after
  obtain ⟨nonempty, _⟩ := write_error_eq_none_iff.1 through
  have lost : (∃ text ∈ Text.split '.' path, GivesNoIndex text) → lookup after path = none :=
    fun dead => lookup_eq_none_of_walks ((walks_eq_nil_iff nonempty).2 dead)
  refine ⟨⟨fun found dead => ?_, fun alive => ?_⟩, lost⟩
  · rw [lost dead] at found
    cases found
  · exact lookup_written something through alive

/-- An element of a missing list is made and read back. A digit of another script makes a key
that is not read as an index. -/
theorem contacts_read_back :
    let fields := [("contacts", Value.null)]
    let mail := Value.str "bob@x.org"
    let indexed := write fields "contacts[1].email" mail
    let foreign := write fields "contacts[\u0663].email" mail
    mail ≠ .null ∧ indexed.error = none ∧ foreign.error = none ∧
      lookup (.obj indexed.value) "contacts[1].email" = some mail ∧
      lookup (.obj foreign.value) "contacts[\u0663].email" = none := by
  intro fields mail indexed foreign
  have something : mail ≠ .null := Value.noConfusion
  have through : indexed.error = none := by decide +kernel
  have through' : foreign.error = none := by decide +kernel
  have alive : ¬ ∃ text ∈ Text.split '.' "contacts[1].email", GivesNoIndex text := by
    rw [← walks_eq_nil_iff (by decide)]
    decide +kernel
  have dead : ∃ text ∈ Text.split '.' "contacts[\u0663].email", GivesNoIndex text :=
    ⟨"contacts[\u0663]", by decide +kernel, "contacts".toList, ['\u0663'],
      bracketed?_eq_some_iff.1 (by decide +kernel),
      .inl ⟨'\u0663', List.mem_cons_self, by decide⟩⟩
  exact ⟨something, through, through', (written_read_back_iff something through).1.2 alive,
    (written_read_back_iff something through').2 dead⟩

/-! ## Beside a write -/

/-- A step of a path that is written out. -/
inductive Step where
  /-- A segment of which it shows only at a value whether it is a key or an index. -/
  | plain (text : String)
  | key (name : String)
  | index (i : Nat)
  deriving DecidableEq, Repr

/-- A segment `name[index]` makes two steps, every other segment one. -/
def Segment.steps : Segment → List Step
  | .plain text => [.plain text]
  | .indexed name i => [.key name, .index i]
  | .unindexable text => [.plain text]

/-- The steps of a path. -/
def steps (path : String) : List Step :=
  (Text.split '.' path).flatMap fun text => (Segment.ofText text).steps

namespace Step

/-- A plain step coincides with an equal key and with the index that it gives. -/
def Coincides : Step → Step → Prop
  | .plain text, .plain text' => text = text'
  | .plain text, .key name => text = name
  | .key name, .plain text => text = name
  | .plain text, .index i => Segment.index? text = some i
  | .index i, .plain text => Segment.index? text = some i
  | .key name, .key name' => name = name'
  | .index i, .index j => i = j
  | .key _, .index _ => False
  | .index _, .key _ => False

/-- The place where a write takes the step. -/
def place : Step → Place
  | .plain text => .key text
  | .key name => .key name
  | .index i => .item i

/-- The places where a read may take the step. -/
def readings : Step → List Place
  | .plain text => .key text :: (Segment.index? text).toList.map Place.item
  | .key name => [.key name]
  | .index i => [.item i]

/-- A step that does not coincide with a step of a write is not read at its place. -/
theorem ne_place_of_not_coincides {a b : Step} (apart : ¬ a.Coincides b) {p : Place}
    (reading : p ∈ b.readings) : p ≠ a.place := by
  rintro rfl
  cases a <;> cases b <;> simp_all [Coincides, readings, place]

end Step

/-- At the first steps that do not coincide neither path has ended. -/
inductive Diverge : List Step → List Step → Prop
  | here {a b : Step} {as bs : List Step} (apart : ¬ a.Coincides b) : Diverge (a :: as) (b :: bs)
  | later {a b : Step} {as bs : List Step} (same : a.Coincides b) (rest : Diverge as bs) :
      Diverge (a :: as) (b :: bs)

theorem places_eq_map_steps {path : String} (nonempty : path ≠ "") :
    places path = (steps path).map Step.place := by
  have segment : ∀ s : Segment, s.places = s.steps.map Step.place := by
    rintro (_ | _ | _) <;> rfl
  rw [places, segments, if_neg nonempty, steps, List.flatMap_map, List.map_flatMap]
  exact congrArg (List.flatMap · _) (funext fun text => segment _)

/-- A read takes each step at one of its places. -/
theorem readings_steps {segs : List Segment} {ps : List Place} (reading : ps ∈ readings segs) :
    List.Forall₂ (fun b p => p ∈ b.readings) (segs.flatMap Segment.steps) ps := by
  induction segs generalizing ps with
  | nil =>
    rw [List.mem_singleton.1 reading]
    exact .nil
  | cons s rest ih =>
    obtain ⟨first, own, others, further, rfl⟩ := cons_mem_readings_iff.1 reading
    refine List.rel_append ?_ (ih further)
    cases s with
    | plain text =>
      obtain rfl | member := List.mem_cons.1 own
      · exact .cons List.mem_cons_self .nil
      · obtain ⟨i, index, rfl⟩ := List.mem_map.1 member
        exact .cons (List.mem_cons_of_mem _ (List.mem_map_of_mem index)) .nil
    | indexed name i =>
      rw [List.mem_singleton.1 own]
      exact .cons (List.mem_singleton_self _) (.cons (List.mem_singleton_self _) .nil)
    | unindexable text => cases own

theorem walks_steps {path : String} {ps : List Place} (walk : ps ∈ walks path) :
    List.Forall₂ (fun b p => p ∈ b.readings) (steps path) ps := by
  unfold walks at walk
  split at walk
  · cases walk
  · rename_i nonempty
    have whole : steps path = (segments path).flatMap Segment.steps := by
      rw [segments, if_neg nonempty, List.flatMap_map]
      rfl
    rw [whole]
    exact readings_steps walk

/-- Paths that diverge lead to places beside each other. -/
theorem Diverge.beside {as bs : List Step} (diverge : Diverge as bs) {ps : List Place}
    (reads : List.Forall₂ (fun b p => p ∈ b.readings) bs ps) :
    ¬ ps <+: as.map Step.place ∧ ¬ as.map Step.place <+: ps := by
  induction diverge generalizing ps with
  | here apart =>
    obtain _ | ⟨reading, _⟩ := reads
    have other := Step.ne_place_of_not_coincides apart reading
    exact ⟨fun h => other (List.cons_prefix_cons.1 h).1,
      fun h => other (List.cons_prefix_cons.1 h).1.symm⟩
  | later _ _ ih =>
    obtain _ | ⟨_, others⟩ := reads
    obtain ⟨above, below⟩ := ih others
    exact ⟨fun h => above (List.cons_prefix_cons.1 h).2,
      fun h => below (List.cons_prefix_cons.1 h).2⟩

/-- A write that comes through changes nothing at a path that diverges from the written one. -/
theorem lookup_write_of_diverge {fields : Dict Value} {path other : String} {v : Value}
    (through : (write fields path v).error = none)
    (diverge : Diverge (steps path) (steps other)) :
    lookup (.obj (write fields path v).value) other = lookup (.obj fields) other := by
  obtain ⟨nonempty, fits⟩ := write_error_eq_none_iff.1 through
  have kept : ∀ ps ∈ walks other,
      found? (.obj (write fields path v).value) ps = found? (.obj fields) ps := by
    intro ps walk
    obtain ⟨above, below⟩ := diverge.beside (walks_steps walk)
    rw [← places_eq_map_steps nonempty] at above below
    rw [obj_write_value through]
    exact found?_plant_beside fits above below
  refine Option.ext fun u => ?_
  rw [lookup_eq_some_iff, lookup_eq_some_iff]
  exact exists_congr fun ps => and_congr_right fun walk => by rw [kept ps walk]

/-- The mail of one contact is read as before after that of the next was written, in a list that
got longer. -/
theorem contacts_keep_first :
    let fields := [("contacts", Value.arr [.obj [("mail", .str "ann@x.org")]])]
    let done := write fields "contacts[1].mail" (.str "bob@x.org")
    done.error = none ∧ Diverge (steps "contacts[1].mail") (steps "contacts.0.mail") ∧
      lookup (.obj done.value) "contacts.0.mail" = lookup (.obj fields) "contacts.0.mail" ∧
      lookup (.obj fields) "contacts.0.mail" = some (.str "ann@x.org") := by
  intro fields done
  have through : done.error = none := by decide +kernel
  have diverge : Diverge (steps "contacts[1].mail") (steps "contacts.0.mail") := by
    have written : steps "contacts[1].mail" = [.key "contacts", .index 1, .plain "mail"] := by
      decide +kernel
    have read : steps "contacts.0.mail" = [.plain "contacts", .plain "0", .plain "mail"] := by
      decide +kernel
    rw [written, read]
    have other : ¬ (Step.index 1).Coincides (.plain "0") := by
      unfold Step.Coincides
      decide +kernel
    exact .later rfl (.here other)
  exact ⟨through, diverge, lookup_write_of_diverge through diverge, by decide +kernel⟩

end Path

end DataMigration
