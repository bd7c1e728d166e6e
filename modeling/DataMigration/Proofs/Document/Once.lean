import DataMigration.Proofs.Document.Canonical
import DataMigration.Proofs.Document.Fields

/-!
# Documents without repeated keys

A document that gives each of its keys once says the same to a reader of its value and to a reader
of its parts. A reader takes every document that holds a value if it takes what the parts of the
value ask for.
-/

namespace DataMigration

namespace Tree

variable {α : Type} {t : Tree}

/-- No mapping of the document has a key twice. -/
inductive Once : Tree → Prop
  | value {v : Value} (canonical : v.Canonical) : Once (.value v)
  | text (s : String) : Once (.text s)
  | bare (s : String) : Once (.bare s)
  | odd : Once .odd
  | list {items : List Tree} (inside : ∀ t ∈ items, Once t) : Once (.list items)
  | dict {entries : List (String × Tree)} (single : (Dict.keys entries).Nodup)
      (inside : ∀ e ∈ entries, Once e.2) : Once (.dict entries)

/-- The document gives each of its keys once and holds the value `v`. -/
structure Gives (t : Tree) (v : Value) : Prop where
  once : t.Once
  holds : t.value? = some v

theorem gives_value {v : Value} (canonical : v.Canonical) : (Tree.value v).Gives v :=
  ⟨.value canonical, rfl⟩

theorem Gives.list?_eq {vs : List Value} (given : t.Gives (.arr vs)) :
    ∃ ts, t.list? = some ts ∧ List.Forall₂ Gives ts vs := by
  obtain ⟨once, holds⟩ := given
  cases once with
  | value canonical =>
    cases holds
    cases canonical with
    | arr inside =>
      refine ⟨_, rfl, List.forall₂_map_left_iff.2 (List.forall₂_same.2 fun v member => ?_)⟩
      exact gives_value (inside v member)
  | text _ => cases holds
  | bare _ => exact absurd (Scalar.value?_cases holds) (by simp)
  | odd => cases holds
  | @list items inside =>
    obtain ⟨vs, all, same⟩ := Option.map_eq_some_iff.1 holds
    cases same
    rw [values?_eq, mapM_eq_some_iff] at all
    refine ⟨_, rfl, ?_⟩
    clear holds
    induction all with
    | nil => exact .nil
    | cons first _ ih =>
      obtain ⟨one, others⟩ := List.forall_mem_cons.1 inside
      exact .cons ⟨one, first⟩ (ih others)
  | dict _ _ => simp [value?] at holds

theorem Gives.entries?_eq {ms : Dict Value} (given : t.Gives (.obj ms)) :
    ∃ entries, t.entries? = some entries ∧ (Dict.keys entries).Nodup ∧
      ∀ k, Option.Rel Gives (Dict.get? entries k) (Dict.get? ms k) := by
  obtain ⟨once, holds⟩ := given
  cases once with
  | value canonical =>
    cases holds
    cases canonical with
    | obj sorted inside =>
      have pairs : List.Forall₂ (fun e f => e.1 = f.1 ∧ e.2.Gives f.2)
          (ms.map fun e => (e.1, Tree.value e.2)) ms :=
        List.forall₂_map_left_iff.2
          (List.forall₂_same.2 fun e member => ⟨rfl, gives_value (inside e member)⟩)
      refine ⟨_, rfl, ?_, Dict.rel_get? pairs⟩
      rw [Dict.keys_eq_of_forall₂ pairs]
      exact Dict.Sorted.nodup_keys sorted
  | text _ => cases holds
  | bare _ => exact absurd (Scalar.value?_cases holds) (by simp)
  | odd => cases holds
  | list _ => simp [value?] at holds
  | @dict entries single inside =>
    obtain ⟨fs, all, same⟩ := Option.map_eq_some_iff.1 holds
    cases same
    rw [fields?_eq, mapM_eq_some_iff] at all
    have pairs : List.Forall₂ (fun e f => e.1 = f.1 ∧ e.2.Gives f.2) entries fs := by
      clear holds single
      induction all with
      | nil => exact .nil
      | cons first _ ih =>
        obtain ⟨one, others⟩ := List.forall_mem_cons.1 inside
        obtain ⟨v, own, rfl⟩ := Option.map_eq_some_iff.1 first
        exact .cons ⟨rfl, one, own⟩ (ih others)
    refine ⟨_, rfl, single, fun k => ?_⟩
    rw [Dict.get?_ofEntries (Dict.keys_eq_of_forall₂ pairs ▸ single)]
    exact Dict.rel_get? pairs k

/-! ## Readers of parts -/

variable {read : Tree → Option α}

/-- Every document that holds `v` can be read, if it gives each key once. -/
def Reads (read : Tree → Option α) (v : Value) : Prop :=
  ∀ t : Tree, t.Gives v → (read t).isSome = true

theorem reads_text (s : String) : Reads text? (.str s) := by
  intro t given
  rw [text?_of_value? given.holds]
  rfl

theorem reads_bool (b : Bool) : Reads bool? (.bool b) := by
  intro t given
  rw [bool?_of_value? given.holds]
  rfl

theorem reads_value (v : Value) : Reads value? v := by
  intro t given
  rw [given.holds]
  rfl

theorem reads_optional {v : Value} (reads : Reads read v) : Reads (optional? read) v := by
  intro t given
  rw [optional?_eq]
  split
  · rfl
  · rw [Option.isSome_map]
    exact reads t given

theorem reads_optionalText {v : Value} (fits : v = .null ∨ ∃ s, v = .str s) :
    Reads (optional? text?) v := by
  obtain rfl | ⟨s, rfl⟩ := fits
  · intro t given
    obtain ⟨_, holds⟩ := given
    rw [optional?_eq]
    cases t with
    | value v => cases holds; rfl
    | text _ => cases holds
    | bare s =>
      split
      · rfl
      · rfl
    | list _ => simp [value?] at holds
    | dict _ => simp [value?] at holds
    | odd => cases holds
  · exact reads_optional (reads_text s)

theorem reads_listOf {vs : List Value} (reads : ∀ v ∈ vs, Reads read v) :
    Reads (listOf? read) (.arr vs) := by
  intro t given
  obtain ⟨ts, inside, pairs⟩ := given.list?_eq
  rw [listOf?, inside, Option.bind_some, isSome_mapM_iff]
  intro u member
  clear given inside
  induction pairs with
  | nil => cases member
  | cons first _ ih =>
    obtain ⟨one, others⟩ := List.forall_mem_cons.1 reads
    obtain rfl | later := List.mem_cons.1 member
    · exact one _ first
    · exact ih others later

/-- The entries of a document that holds an object hold its members. -/
theorem Gives.exists_member {members : Dict Value} {t : Tree} (given : t.Gives (.obj members))
    {entries : List (String × Tree)} (inside : t.entries? = some entries) :
    ∀ e ∈ entries, ∃ v, (e.1, v) ∈ members ∧ e.2.Gives v := by
  obtain ⟨es, same, once, pairs⟩ := given.entries?_eq
  obtain rfl := Option.some.inj (inside.symm.trans same)
  intro e member
  have pair := pairs e.1
  rw [Dict.get?_of_mem once member] at pair
  generalize found : Dict.get? members e.1 = o at pair
  cases pair with
  | some own => exact ⟨_, Dict.mem_of_get? found, own⟩

theorem reads_dictOf {members : Dict Value} (reads : ∀ e ∈ members, Reads read e.2) :
    Reads (dictOf? read) (.obj members) := by
  intro t given
  obtain ⟨entries, inside, _⟩ := given.entries?_eq
  have all : (entries.mapM fun e => (read e.2).map fun a => (e.1, a)).isSome = true := by
    rw [isSome_mapM_iff]
    intro e member
    obtain ⟨v, among, own⟩ := given.exists_member inside e member
    rw [Option.isSome_map]
    exact reads _ among _ own
  obtain ⟨es, read⟩ := Option.isSome_iff_exists.1 all
  simp [dictOf?, inside, read]

theorem isSome_listOf?_value {ws : List Value} (all : (listOf? read (.value (.arr ws))).isSome) :
    ∀ w ∈ ws, (read (.value w)).isSome = true := by
  rw [listOf?, list?, Option.bind_some, isSome_mapM_iff] at all
  exact fun w member => all _ (List.mem_map_of_mem member)

theorem isSome_dictOf?_value {members : Dict Value}
    (all : (dictOf? read (.value (.obj members))).isSome) :
    ∀ e ∈ members, (read (.value e.2)).isSome = true := by
  obtain ⟨d, given⟩ := Option.isSome_iff_exists.1 all
  obtain ⟨es, rest, _⟩ := Option.bind_eq_some_iff.1 given
  have each := isSome_mapM_iff.1 (Option.isSome_iff_exists.2 ⟨es, rest⟩)
  intro e member
  have own := each _ (List.mem_map_of_mem member)
  rwa [Option.isSome_map] at own

end Tree

namespace Record

open DataMigration.Tree

variable {α : Type} {r : Record} {name : String} {read : Tree → Option α} {o : Option Value}

theorem isSome_withDefault {default : α} (shown : Option.Rel Gives (r.part? name) o)
    (reads : ∀ v, o = some v → Reads read v) :
    (r.withDefault name default read).isSome = true := by
  unfold withDefault
  generalize r.part? name = part at shown
  cases shown with
  | none => rfl
  | some given => exact reads _ rfl _ given

theorem isSome_required (shown : Option.Rel Gives (r.part? name) o) (present : o.isSome = true)
    (reads : ∀ v, o = some v → Reads read v) : (r.required name read).isSome = true := by
  unfold required
  generalize r.part? name = part at shown
  cases shown with
  | none => cases present
  | some given => exact reads _ rfl _ given

variable {shape : List FieldName} {members : Dict Value} {t : Tree}

/-- A document that holds an object is a record unless it gives a field under both its names. -/
theorem isSome_ofTree?_iff (given : t.Gives (.obj members)) (apart : FieldName.Apart shape) :
    (ofTree? shape t).isSome = true ↔ ∀ f ∈ shape, ∀ other ∈ f.alternative,
      Dict.get? members f.name = none ∨ Dict.get? members other = none := by
  obtain ⟨entries, inside, once, pairs⟩ := given.entries?_eq
  have absent : ∀ k, Dict.get? entries k = none ↔ Dict.get? members k = none := by
    intro k
    have pair := pairs k
    generalize Dict.get? entries k = a at pair
    generalize Dict.get? members k = b at pair
    cases pair <;> simp
  simp only [← absent]
  rw [ofTree?_of_entries inside, ← distinct_known_iff apart once]
  split <;> simp_all

/-- The parts of the record are the members of the object. -/
theorem part?_of_gives (given : t.Gives (.obj members)) (apart : FieldName.Apart shape)
    (record : ofTree? shape t = some r) :
    ∀ f ∈ shape, Option.Rel Gives (r.part? f.name)
      ((Dict.get? members f.name).or (f.alternative.bind fun other => Dict.get? members other)) := by
  obtain ⟨entries, inside, once, pairs⟩ := given.entries?_eq
  rw [ofTree?_of_entries inside] at record
  split at record
  · rename_i distinct
    cases record
    intro f own
    cases second : f.alternative with
    | none =>
      rw [part?_known apart own second, Option.bind_none, Option.or_none]
      exact pairs f.name
    | some other =>
      rw [part?_known_of_alternative apart own second
        ((distinct_known_iff apart once).1 distinct f own other second), Option.bind_some]
      have first := pairs f.name
      have last := pairs other
      generalize Dict.get? entries f.name = a at first
      generalize Dict.get? members f.name = b at first
      cases first with
      | none => exact last
      | some held => exact .some held
  · cases record

theorem part?_of_gives_of_plain (given : t.Gives (.obj members)) (apart : FieldName.Apart shape)
    (record : ofTree? shape t = some r) {f : FieldName} (own : f ∈ shape)
    (plain : f.alternative = none) :
    Option.Rel Gives (r.part? f.name) (Dict.get? members f.name) := by
  have shown := part?_of_gives given apart record f own
  rwa [plain, Option.bind_none, Option.or_none] at shown

/-- The parts of a record that an object gives are its members. -/
theorem part?_value (apart : FieldName.Apart shape)
    (record : ofTree? shape (.value (.obj members)) = some r) {f : FieldName} (own : f ∈ shape)
    (plain : f.alternative = none) :
    r.part? f.name = (Dict.get? members f.name).map Tree.value := by
  rw [ofTree?_of_entries rfl] at record
  split at record
  · cases record
    rw [part?_known apart own plain]
    exact Dict.get?_mapValues Tree.value members f.name
  · cases record

end Record

end DataMigration
