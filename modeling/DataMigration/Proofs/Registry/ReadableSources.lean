import DataMigration.Proofs.Path.Places
import DataMigration.Proofs.Registry.WrittenFields

/-!
# Source paths that can be read

A source path may begin with the name of the service that it is read from, may start at a field
with an index, and reads any payload, also an array. The check of an entity mapping holds the path
as a whole and its first name against the fields of the schema. So it refuses some paths under
which there is a value, and which ones is said here.
-/

namespace DataMigration

/-- Texts that begin with different letters go on to be different. -/
theorem Text.append_ne_append {a b : String} {c d : Char} (begins : a.toList.head? = some c)
    (begins' : b.toList.head? = some d) (other : c ≠ d) (x y : String) : a ++ x ≠ b ++ y := by
  intro same
  have heads := congrArg (fun s : String => s.toList.head?) same
  simp only [String.toList_append, List.head?_append, begins, begins', Option.some_or,
    Option.some.injEq] at heads
  exact other heads

namespace Path

theorem segments_eq_cons {path : String} (named : path ≠ "") :
    ∃ rest, segments path = Segment.ofText (first path) :: rest := by
  obtain ⟨rest, pieces⟩ := split_eq_first path
  exact ⟨rest.map Segment.ofText, by rw [segments, if_neg named, pieces, List.map_cons]⟩

theorem ofText_eq_plain {text name : String} (plain : Segment.ofText text = .plain name) :
    name = text := by
  unfold Segment.ofText at plain
  split at plain
  · exact (Segment.plain.inj plain).symm
  · split at plain <;> cases plain

theorem ofText_of_index? {text : String} {i : Nat} (index : Segment.index? text = some i) :
    Segment.ofText text = .plain text := by
  refine ofText_key fun bracket => ?_
  rw [index?_eq_none bracket (by decide) (by decide)] at index
  cases index

/-- The walks of a segment start at its field, and those of an index at an item too. -/
theorem exists_reading_from_iff {text : String} {p : Place} :
    (∃ ps ∈ (Segment.ofText text).readings, ps.head? = some p) ↔
      (∀ other, Segment.ofText text ≠ .unindexable other) ∧
        (p = .key (Segment.ofText text).key ∨
          ∃ i, Segment.index? text = some i ∧ p = .item i) := by
  cases reads : Segment.ofText text with
  | unindexable other => simp [Segment.readings]
  | plain name =>
    rw [ofText_eq_plain reads]
    simp [Segment.readings, Segment.key, eq_comm]
  | indexed name i =>
    have noIndex : ∀ j, Segment.index? text ≠ some j := fun j index => by
      rw [ofText_of_index? index] at reads
      cases reads
    simp [Segment.readings, Segment.key, noIndex, eq_comm]

theorem Segment.ne_nil_of_mem_readings {s : Segment} {ps : List Place} (member : ps ∈ s.readings) :
    ps ≠ [] := by
  rintro rfl
  cases s <;> simp [Segment.readings] at member

theorem ne_nil_of_mem_walks {path : String} {ps : List Place} (member : ps ∈ walks path) :
    ps ≠ [] := by
  unfold walks at member
  split at member
  · cases member
  · rename_i named
    obtain ⟨rest, segs⟩ := segments_eq_cons named
    rw [segs] at member
    obtain ⟨own, reading, qs, _, rfl⟩ := cons_mem_readings_iff.1 member
    exact List.append_ne_nil_of_left_ne_nil (Segment.ne_nil_of_mem_readings reading) qs

/-- The walks of a path start at the field that it is written to, and those of an index at an item
too. -/
theorem exists_walk_from_iff {path : String} {p : Place} :
    (∃ ps ∈ walks path, ps.head? = some p) ↔
      path ≠ "" ∧ (∀ text, Segment.unindexable text ∉ segments path) ∧
        (p = .key (writtenKey path) ∨ ∃ i, Segment.index? (first path) = some i ∧ p = .item i) := by
  by_cases named : path = ""
  · simp [walks, named]
  obtain ⟨rest, segs⟩ := segments_eq_cons named
  have indexed : (∀ text, Segment.unindexable text ∉ segments path) ↔
      (∀ text, Segment.ofText (first path) ≠ .unindexable text) ∧ readings rest ≠ [] := by
    rw [ne_eq, readings_eq_nil_iff, not_exists, ← forall_and, segs]
    simp only [List.mem_cons, not_or, eq_comm]
  rw [indexed, and_iff_right named, and_right_comm, writtenKey, ← exists_reading_from_iff, walks,
    if_neg named, segs, readings]
  simp only [List.mem_flatMap, List.mem_map]
  constructor
  · rintro ⟨_, ⟨ps, member, qs, others, rfl⟩, starts⟩
    rw [List.head?_append_of_ne_nil _ (Segment.ne_nil_of_mem_readings member)] at starts
    exact ⟨⟨ps, member, starts⟩, List.ne_nil_of_mem others⟩
  · rintro ⟨⟨ps, member, starts⟩, others⟩
    obtain ⟨qs, others⟩ := List.exists_mem_of_ne_nil _ others
    refine ⟨ps ++ qs, ⟨ps, member, qs, others, rfl⟩, ?_⟩
    rw [List.head?_append_of_ne_nil _ (Segment.ne_nil_of_mem_readings member), starts]

end Path

/-- The rest of a source path that begins with the name of a service, or else the whole path. -/
def Payloads.inner (service path : String) : String :=
  match Text.cut? "." path with
  | some (head, rest) => if Text.sameIgnoringCase service head then rest else path
  | none => path

theorem Payloads.resolve?_singleton (service path : String) (payload : Value) :
    resolve? [(service, payload)] path = Path.lookup payload (inner service path) := by
  have first : first? [(service, payload)] path = Path.lookup payload path := by
    cases reads : Path.lookup payload path <;> simp [first?, reads]
  unfold resolve? inner
  cases Text.cut? "." path with
  | none => exact first
  | some cut =>
    obtain ⟨head, rest⟩ := cut
    by_cases own : Text.sameIgnoringCase service head = true
    · simp [service?, own]
    · simp [service?, own, first]

namespace EntitySchema

variable {s : EntitySchema} {payload : Value} {path : String}

/-- All fields of a payload are declared. -/
def Covers (s : EntitySchema) (payload : Value) : Prop :=
  ∀ key ∈ Dict.keys (Path.fields payload), Dict.contains s.fields key = true

/-- A source path finds a value in a payload of the service that has declared fields only. -/
def Offers (s : EntitySchema) (service path : String) : Prop :=
  ∃ payload, s.Covers payload ∧ ∃ v, Payloads.resolve? [(service, payload)] path = some v

/-- A path without its service can be read, from a declared field or from an array. -/
structure Reaches (s : EntitySchema) (path : String) : Prop where
  named : path ≠ ""
  indexed : ∀ text, Path.Segment.unindexable text ∉ Path.segments path
  start : Dict.contains s.fields (Path.writtenKey path) = true ∨
    (Path.Segment.index? (Path.first path)).isSome = true

/-- A walk finds something in a payload of declared fields unless it starts at another field. -/
theorem exists_covered_iff {p : Path.Place} {ps : List Path.Place} :
    (∃ payload, s.Covers payload ∧ ∃ v, Path.found? payload (p :: ps) = some v) ↔
      ∀ key, p = .key key → Dict.contains s.fields key = true := by
  constructor
  · rintro ⟨payload, covered, v, found⟩ key rfl
    refine covered key ?_
    by_contra absent
    rw [Path.found?_cons, Path.inside?_key, Dict.get?_eq_none_iff.2 absent, Option.getD_none,
      Path.found?_null] at found
    cases found
  · intro declared
    refine ⟨Path.plant (.bool true) (p :: ps) .null, fun key member => ?_, .bool true, ?_⟩
    · cases p with
      | item i => cases member
      | key name =>
        obtain rfl | none := Dict.mem_keys_put.1 member
        · exact declared _ rfl
        · cases none
    · have there := Path.found?_plant_below (.bool true) (p :: ps) [] .null
      rw [List.append_nil] at there
      rw [there]
      rfl

/-- A source path finds a value in some payload of declared fields exactly when the path behind the
name of its service can be read from a declared field or from an array. -/
theorem offers_iff {service : String} :
    s.Offers service path ↔ s.Reaches (Payloads.inner service path) := by
  simp only [Offers, Payloads.resolve?_singleton, Path.lookup_eq_some_iff]
  generalize Payloads.inner service path = inner
  constructor
  · rintro ⟨payload, covered, v, ps, walk, found⟩
    obtain ⟨p, ps, rfl⟩ := List.exists_cons_of_ne_nil (Path.ne_nil_of_mem_walks walk)
    obtain ⟨named, indexed, start⟩ := Path.exists_walk_from_iff.1 ⟨_, walk, rfl⟩
    have declared := exists_covered_iff.1 ⟨payload, covered, v, found⟩
    refine ⟨named, indexed, ?_⟩
    obtain rfl | ⟨i, index, _⟩ := start
    · exact .inl (declared _ rfl)
    · exact .inr (by rw [index]; rfl)
  · rintro ⟨named, indexed, start⟩
    have found : ∃ p : Path.Place, (∀ key, p = .key key → Dict.contains s.fields key = true) ∧
        ∃ ps ∈ Path.walks inner, ps.head? = some p := by
      obtain declared | index := start
      · refine ⟨.key (Path.writtenKey inner), ?_,
          Path.exists_walk_from_iff.2 ⟨named, indexed, .inl rfl⟩⟩
        rintro key ⟨⟩
        exact declared
      · obtain ⟨i, index⟩ := Option.isSome_iff_exists.1 index
        refine ⟨.item i, fun key => nofun, ?_⟩
        exact Path.exists_walk_from_iff.2 ⟨named, indexed, .inr ⟨i, index, rfl⟩⟩
    obtain ⟨p, declared, _, walk, starts⟩ := found
    obtain ⟨ps, rfl⟩ := List.head?_eq_some_iff.1 starts
    obtain ⟨payload, covered, v, found⟩ := exists_covered_iff.2 declared
    exact ⟨payload, covered, v, _, walk, found⟩

end EntitySchema

namespace Registry

/-- A finding about the paths of a field mapping says which of them is not declared. -/
theorem message_of_mem_pathFindings {source target : EntitySchema} {f : FieldMapping} {e : Finding}
    (listed : e ∈ pathFindings source target f) :
    (∃ path, f.source = some path ∧ hasSource source path = false ∧
        e.message = "Source field not found: " ++ path) ∨
      e.message = "Target field not found: " ++ f.target := by
  obtain sourced | targeted := List.mem_append.1 listed
  · cases reads : f.source with
    | none =>
      rw [reads] at sourced
      cases sourced
    | some path =>
      simp only [reads] at sourced
      split at sourced
      · cases sourced
      · rename_i undeclared
        rw [List.mem_singleton.1 sourced]
        exact .inl ⟨path, rfl, eq_false_of_ne_true undeclared, rfl⟩
  · split at targeted
    · cases targeted
    · rw [List.mem_singleton.1 targeted]
      exact .inr rfl

/-- The path of a field mapping is reported as not found if the schema declares neither it nor its
root. -/
theorem source_reported_iff {r : Registry} {m : EntityMapping} {source target : EntitySchema}
    (known : r.entitySchema? m.source = some source)
    (known' : r.entitySchema? m.target = some target) {f : FieldMapping} (member : f ∈ m.fields)
    {path : String} (reads : f.source = some path) :
    (∃ e ∈ (r.check m).errors, e.message = "Source field not found: " ++ path) ↔
      hasSource source path = false := by
  simp only [check, known, known', List.mem_append, List.mem_flatMap]
  constructor
  · rintro ⟨e, ⟨f', _, listed⟩ | unfilled, wording⟩
    · obtain ⟨path', _, undeclared, own⟩ | own := message_of_mem_pathFindings listed
      · rwa [← (String.append_right_inj _).1 (own.symm.trans wording)]
      · exact absurd (own.symm.trans wording)
          (Text.append_ne_append (c := 'T') (d := 'S') rfl rfl (by decide) _ _)
    · obtain ⟨name, _, rfl⟩ := List.mem_map.1 unfilled
      exact absurd wording
        (Text.append_ne_append (c := 'R') (d := 'S') rfl rfl (by decide) _ _)
  · intro undeclared
    refine ⟨{ field := path, message := "Source field not found: " ++ path, kind := .unknownField },
      .inl ⟨f, member, List.mem_append_left _ ?_⟩, rfl⟩
    simp [reads, undeclared]

/-- The paths that are accepted if there can be a value under them: where something is reached
behind the name of the service, the schema has to declare the path as a whole or its root. -/
theorem accepts_readable_source_iff (r : Registry) (m : EntityMapping)
    {source target : EntitySchema} (known : r.entitySchema? m.source = some source)
    (known' : r.entitySchema? m.target = some target) {f : FieldMapping} (member : f ∈ m.fields)
    {path : String} (reads : f.source = some path) :
    (source.Offers m.source.service path →
        ∀ e ∈ (r.check m).errors, e.message ≠ "Source field not found: " ++ path) ↔
      (source.Reaches (Payloads.inner m.source.service path) →
        Dict.contains source.fields path = true ∨
          Dict.contains source.fields (Path.root path) = true) := by
  have accepted : (∀ e ∈ (r.check m).errors, e.message ≠ "Source field not found: " ++ path) ↔
      hasSource source path = true := by
    rw [← Bool.not_eq_false, ← source_reported_iff known known' member reads]
    simp only [not_exists, not_and, ne_eq]
  rw [EntitySchema.offers_iff, accepted, hasSource, Bool.or_eq_true_iff]

/-- Invoices become orders, whose total comes from a path. -/
def orderMapping (source : String) : EntityMapping where
  name := "invoices"
  source := ⟨"crm", "invoice"⟩
  target := ⟨"shop", "order"⟩
  fields := [.copy source "total"]

/-- An invoice with one item. -/
def sampleInvoice : Value := .obj [("items", .arr [.obj [("price", .nat 5)]])]

/-- The price of the first item can be read, and its path is accepted. -/
theorem orderMapping_accepts_price :
    invoiceSchema.Offers "crm" "items[0].price" ∧
    ∀ e ∈ (invoiceRegistry.check (orderMapping "items[0].price")).errors,
      e.message ≠ "Source field not found: " ++ "items[0].price" := by
  have offers : invoiceSchema.Offers "crm" "items[0].price" := by
    refine ⟨sampleInvoice, ?_, .nat 5, by decide +kernel⟩
    intro key member
    rw [List.mem_singleton.1 member]
    decide +kernel
  have known : invoiceRegistry.entitySchema? (orderMapping "items[0].price").source =
      some invoiceSchema := rfl
  refine ⟨offers, (accepts_readable_source_iff invoiceRegistry (orderMapping "items[0].price")
    known rfl List.mem_cons_self rfl).2 (fun _ => .inr ?_) offers⟩
  decide +kernel

/-- Behind the name of its service, the same path finds the same price, and it is refused. -/
theorem orderMapping_refuses_price :
    Payloads.resolve? [("crm", sampleInvoice)] "crm.items[0].price" = some (.nat 5) ∧
    invoiceSchema.Covers sampleInvoice ∧
    ∃ e ∈ (invoiceRegistry.check (orderMapping "crm.items[0].price")).errors,
      e.message = "Source field not found: crm.items[0].price" := by
  refine ⟨by decide +kernel, ?_, ?_⟩
  · intro key member
    rw [List.mem_singleton.1 member]
    decide +kernel
  · decide +kernel

end Registry

end DataMigration
