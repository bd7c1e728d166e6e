import DataMigration.Proofs.Dict
import DataMigration.Proofs.Mapping.Isolation
import DataMigration.Proofs.Path.Bracketed
import DataMigration.Proofs.Validation.Merging
import DataMigration.Registry.Preflight
import DataMigration.Schema.Infer
import Mathlib.Data.List.TakeWhile

/-!
# The fields that a checked mapping writes

The check of an entity mapping reads a target path up to the first bracket, a write reads its first
segment as a whole. The two agree unless the segment has a bracket and is no index. So a mapping
that passes the check fills undeclared fields only through such paths.
-/

namespace DataMigration

namespace Path

/-- The first segment of a path, as it is written. -/
def first (path : String) : String := String.ofList (path.toList.takeWhile (· != '.'))

/-- The field that a segment addresses. -/
def Segment.key : Segment → String
  | .plain name => name
  | .indexed name _ => name
  | .unindexable text => text

/-- The field of an object that a write at a path changes. -/
def writtenKey (path : String) : String := (Segment.ofText (first path)).key

/-- The first segment has a bracket and is not an element of an array. -/
def IsStray (path : String) : Prop :=
  '[' ∈ (first path).toList ∧ ∀ name i, Segment.ofText (first path) ≠ .indexed name i

theorem IsBracketed.name_eq_takeWhile {cs name digits : List Char}
    (form : IsBracketed cs name digits) : name = cs.takeWhile (· != '[') := by
  have words : ∀ c ∈ name, (c != '[') = true := by
    intro c member
    rw [bne_iff_ne]
    rintro rfl
    exact bracket_not_word (form.word '[' member)
  rw [form.whole, List.takeWhile_append_of_pos words]
  simp

/-- Where the first segment is not stray, a write changes the field that the path is checked by. -/
theorem writtenKey_eq_root {path : String} (regular : ¬ IsStray path) :
    writtenKey path = root path := by
  have root_eq : root path = String.ofList ((first path).toList.takeWhile (· != '[')) := by
    simp only [root, first, String.toList_ofList]
  by_cases bracket : '[' ∈ (first path).toList
  · have index : ∃ name i, Segment.ofText (first path) = .indexed name i := by
      by_contra none
      exact regular ⟨bracket, fun name i same => none ⟨name, i, same⟩⟩
    obtain ⟨name, i, same⟩ := index
    rw [writtenKey, same, root_eq]
    unfold Segment.ofText at same
    split at same
    · cases same
    · rename_i cs digits reads
      split at same
      · obtain ⟨rfl, _⟩ := Segment.indexed.inj same
        rw [Segment.key, (bracketed?_eq_some_iff.1 reads).name_eq_takeWhile]
      · cases same
  · have plain : (first path).toList.takeWhile (· != '[') = (first path).toList := by
      rw [List.takeWhile_eq_self_iff]
      intro c member
      rw [bne_iff_ne]
      rintro rfl
      exact bracket member
    rw [writtenKey, ofText_key bracket, root_eq, plain, String.ofList_toList]
    rfl

/-- What is free by its path is free by the field that the path is checked by. -/
theorem free_root {path : String} (free : Text.startsWith "meta_data" path = true) :
    Text.startsWith "meta_data" (root path) = true := by
  obtain ⟨rest, whole⟩ := List.isPrefixOf_iff_prefix.1 free
  have dotless : ("meta_data".toList.all fun c => c != '.') = true := by decide
  have unbracketed : ("meta_data".toList.all fun c => c != '[') = true := by decide
  refine List.isPrefixOf_iff_prefix.2 ?_
  rw [root, String.toList_ofList, ← whole,
    List.takeWhile_append_of_pos (List.all_eq_true.1 dotless),
    List.takeWhile_append_of_pos (List.all_eq_true.1 unbracketed), String.toList_ofList]
  exact List.prefix_append _ _

/-! ## The fields after a write -/

theorem mem_keys_atPlace {path : String} {f : Value → Changed PathError Value} {place : Segment}
    {fields : Dict Value} {key : String} :
    key ∈ Dict.keys (atPlace path f place fields).value ↔
      key = place.key ∨ key ∈ Dict.keys fields := by
  cases place <;> exact Dict.mem_keys_put

theorem mem_keys_writeAlong {path text key : String} {v : Value} {rest : List String}
    {fields : Dict Value} :
    key ∈ Dict.keys (writeAlong path v (text :: rest) fields).value ↔
      key = (Segment.ofText text).key ∨ key ∈ Dict.keys fields := by
  cases rest <;> exact mem_keys_atPlace

theorem split_eq_first (path : String) : ∃ rest, Text.split '.' path = first path :: rest := by
  obtain ⟨rest, pieces⟩ := Text.splitAt_eq_takeWhile '.' path.toList
  exact ⟨rest.map String.ofList, by rw [Text.split, pieces, List.map_cons, first]⟩

/-- A write adds the field that its path starts with, whether it comes through or not. -/
theorem mem_keys_write {path key : String} {v : Value} {fields : Dict Value} (some : path ≠ "") :
    key ∈ Dict.keys (write fields path v).value ↔
      key = writtenKey path ∨ key ∈ Dict.keys fields := by
  obtain ⟨rest, pieces⟩ := split_eq_first path
  rw [write, if_neg some, pieces]
  exact mem_keys_writeAlong

end Path

section

variable {tools : Toolbox} {payloads : Payloads}

/-- A field mapping gives a value and has a place for it. -/
structure FieldMapping.Writes (m : FieldMapping) (tools : Toolbox) (payloads : Payloads) :
    Prop where
  applies : m.applies payloads.values = true
  value : ∃ v, m.value tools payloads = .ok (some v)
  target : m.target ≠ ""

theorem FieldMapping.mem_keys_perform {m : FieldMapping} {data : Dict Value} {key : String} :
    key ∈ Dict.keys (m.perform tools payloads data).value ↔
      m.Writes tools payloads ∧ Path.writtenKey m.target = key ∨ key ∈ Dict.keys data := by
  have silent : ¬ m.Writes tools payloads → (m.perform tools payloads data).value = data →
      (key ∈ Dict.keys (m.perform tools payloads data).value ↔
        m.Writes tools payloads ∧ Path.writtenKey m.target = key ∨ key ∈ Dict.keys data) := by
    intro idle same
    rw [same]
    exact ⟨Or.inr, fun either => either.resolve_left fun writes => idle writes.1⟩
  by_cases applies : m.applies payloads.values = true
  · cases outcome : m.value tools payloads with
    | error e =>
      refine silent (fun writes => ?_) (by simp only [perform, applies, writeInto, outcome, if_true])
      obtain ⟨v, given⟩ := writes.value
      rw [outcome] at given
      cases given
    | ok given =>
      cases given with
      | none =>
        refine silent (fun writes => ?_)
          (by simp only [perform, applies, writeInto, outcome, if_true])
        obtain ⟨v, given⟩ := writes.value
        rw [outcome] at given
        cases given
      | some v =>
        by_cases empty : m.target = ""
        · refine silent (fun writes => writes.target empty) ?_
          simp only [perform, applies, writeInto, outcome, empty, if_true]
          rfl
        · have writes : m.Writes tools payloads := ⟨applies, ⟨v, outcome⟩, empty⟩
          simp only [perform, applies, writeInto, outcome, if_true, Changed.mapError_value,
            Path.mem_keys_write empty, writes, true_and]
          rw [eq_comm]
  · exact silent (fun writes => applies writes.applies) (by rw [perform, if_neg applies])

namespace EntityMapping

theorem mem_keys_foldl_step (fields : List FieldMapping) (r : TargetRecord) {key : String} :
    key ∈ Dict.keys (fields.foldl (step tools payloads) r).data ↔
      (∃ m ∈ fields, m.Writes tools payloads ∧ Path.writtenKey m.target = key) ∨
        key ∈ Dict.keys r.data := by
  induction fields generalizing r with
  | nil => simp
  | cons m rest ih =>
    rw [List.foldl_cons, ih, step_data, FieldMapping.mem_keys_perform,
      List.exists_mem_cons_iff]
    exact or_left_comm.trans or_assoc.symm

/-- The fields of a record are those that the field mappings with a value write. -/
theorem mem_keys_apply (m : EntityMapping) (tools : Toolbox) (now : Calendar.Instant)
    (target : EntityRef) (first : SourceRecord) (others : List SourceRecord) :
    ∃ made, m.apply tools now target (first :: others) = .ok made ∧
      ∀ key, key ∈ Dict.keys made.data ↔
        ∃ f ∈ m.fields, f.Writes tools (Payloads.ofRecords (first :: others)) ∧
          Path.writtenKey f.target = key := by
  refine ⟨_, rfl, fun key => (mem_keys_foldl_step m.fields _).trans ?_⟩
  exact or_iff_left (List.not_mem_nil (a := key))

end EntityMapping

end

theorem Validation.no_unknownField_iff {rules : FieldRules} {s : EntitySchema} {strict : Bool}
    {r : TargetRecord} :
    (∀ f ∈ findings rules s strict r, f.kind ≠ .unknownField) ↔
      ∀ key ∈ Dict.keys r.data, isFree key = true ∨ Dict.contains s.fields key = true := by
  constructor
  · intro known key member
    by_contra unknown
    have listed : key ∈ unknownFields r s := by
      refine List.mem_filter.2 ⟨member, ?_⟩
      simpa using unknown
    exact known _ (List.mem_append_right _ (List.mem_map_of_mem listed)) rfl
  · intro known f member
    obtain declared | unknown := List.mem_append.1 member
    · obtain ⟨e, _, found⟩ := List.mem_flatMap.1 declared
      exact (concerns_fieldFindings e.2 _ _ f found).kind.2
    · obtain ⟨key, listed, rfl⟩ := List.mem_map.1 unknown
      obtain ⟨among, undeclared⟩ := List.mem_filter.1 listed
      obtain free | declared := known key among <;> simp_all

namespace Registry

theorem hasTarget_of_check {r : Registry} {m : EntityMapping} (passes : (r.check m).errors = []) :
    ∃ schema, r.entitySchema? m.target = some schema ∧
      ∀ f ∈ m.fields, hasTarget schema f.target = true := by
  simp only [check] at passes
  cases source : r.entitySchema? m.source with
  | none => simp [source] at passes
  | some given =>
    cases target : r.entitySchema? m.target with
    | none => simp [source, target] at passes
    | some schema =>
      simp only [source, target, List.append_eq_nil_iff, List.flatMap_eq_nil_iff] at passes
      refine ⟨schema, rfl, fun f member => ?_⟩
      have clean := (List.append_eq_nil_iff.1 (passes.1 f member)).2
      by_contra missing
      rw [if_neg missing] at clean
      cases clean

/-- What is checked about a path that is not stray covers the field that is written. -/
theorem known_writtenKey {schema : EntitySchema} {path : String}
    (declared : hasTarget schema path = true) (regular : ¬ Path.IsStray path) :
    Validation.isFree (Path.writtenKey path) = true ∨
      Dict.contains schema.fields (Path.writtenKey path) = true := by
  rw [Path.writtenKey_eq_root regular]
  obtain named | free := Bool.or_eq_true_iff.1 declared
  · exact .inr named
  · exact .inl (Path.free_root free)

/-- A mapping that passes the check fills only fields that the strict validation knows, unless a
field mapping with a stray target writes a value: then its whole first segment has to be declared
or free. -/
theorem checked_fills_known_fields_iff (r : Registry) (m : EntityMapping)
    (passes : (r.check m).errors = []) :
    ∃ schema, r.entitySchema? m.target = some schema ∧
      ∀ (rules : FieldRules) (tools : Toolbox) (now : Calendar.Instant) (target : EntityRef)
        (first : SourceRecord) (others : List SourceRecord),
        ∃ made, m.apply tools now target (first :: others) = .ok made ∧
          ((∀ f ∈ Validation.findings rules schema true made, f.kind ≠ .unknownField) ↔
            ∀ f ∈ m.fields, f.Writes tools (Payloads.ofRecords (first :: others)) →
              Path.IsStray f.target →
                Validation.isFree (Path.writtenKey f.target) = true ∨
                  Dict.contains schema.fields (Path.writtenKey f.target) = true) := by
  obtain ⟨schema, found, declared⟩ := hasTarget_of_check passes
  refine ⟨schema, found, fun rules tools now target first others => ?_⟩
  obtain ⟨made, applied, fields⟩ := m.mem_keys_apply tools now target first others
  refine ⟨made, applied, Validation.no_unknownField_iff.trans ?_⟩
  constructor
  · intro known f member writes _
    exact known _ ((fields _).2 ⟨f, member, writes, rfl⟩)
  · intro stray key member
    obtain ⟨f, among, writes, rfl⟩ := (fields key).1 member
    by_cases regular : Path.IsStray f.target
    · exact stray f among writes regular
    · exact known_writtenKey (declared f among) regular

/-- The schema that is inferred from an invoice with one item and an empty one. -/
def invoiceSchema : EntitySchema :=
  Infer.entity [.obj [("items", .arr [.obj [("price", .nat 5)]])], .obj []] "invoice"

/-- A registry with the schemas of orders and invoices. -/
def invoiceRegistry : Registry :=
  ({} : Registry)
    |>.addSchema {
      name := "shop"
      entities := [("order", Infer.entity [.obj [("total", .nat 5)]] "order")] }
    |>.addSchema { name := "crm", entities := [("invoice", invoiceSchema)] }

/-- Orders become invoices, whose price goes to a path. -/
def invoiceMapping (target : String) : EntityMapping where
  name := "orders"
  source := ⟨"shop", "order"⟩
  target := ⟨"crm", "invoice"⟩
  fields := [.copy "total" target]

/-- An order of a total. -/
def sampleOrder : SourceRecord where
  id := "1"
  service := "shop"
  entity := "order"
  data := .obj [("total", .nat 5)]
  extractedAt := ⟨0, 0⟩

/-- The price of the first item is written into the declared items. -/
theorem invoiceMapping_fills_known_fields :
    (invoiceRegistry.check (invoiceMapping "items[0].price")).errors = [] ∧
    ∃ made, (invoiceMapping "items[0].price").apply {} ⟨0, 0⟩ ⟨"crm", "invoice"⟩ [sampleOrder] =
        .ok made ∧
      made.data = [("items", .arr [.obj [("price", .nat 5)]])] ∧
      ∀ f ∈ Validation.findings [] invoiceSchema true made, f.kind ≠ .unknownField := by
  have passes : (invoiceRegistry.check (invoiceMapping "items[0].price")).errors = [] := by
    decide +kernel
  obtain ⟨schema, found, runs⟩ := checked_fills_known_fields_iff _ _ passes
  obtain rfl : invoiceSchema = schema := Option.some.inj found
  obtain ⟨made, applied, known⟩ := runs [] {} ⟨0, 0⟩ ⟨"crm", "invoice"⟩ sampleOrder []
  have data : made.data = [("items", .arr [.obj [("price", .nat 5)]])] := by
    rw [← Except.ok.inj applied]
    decide +kernel
  refine ⟨passes, made, applied, data, known.2 ?_⟩
  intro f member _ stray
  rw [List.mem_singleton.1 member] at stray
  exact absurd rfl (stray.2 "items" 0)

/-- The path of the inferred field passes the check, and its price ends in a field that the
inferred schema does not know. -/
theorem invoiceMapping_fills_unknown_field :
    (invoiceRegistry.check (invoiceMapping "items[].price")).errors = [] ∧
    invoiceRegistry.entitySchema? ⟨"crm", "invoice"⟩ = some invoiceSchema ∧
    ∃ made, (invoiceMapping "items[].price").apply {} ⟨0, 0⟩ ⟨"crm", "invoice"⟩ [sampleOrder] =
        .ok made ∧
      made.data = [("items[]", .obj [("price", .nat 5)])] ∧
      ∃ f ∈ Validation.findings [] invoiceSchema true made, f.kind = .unknownField := by
  refine ⟨by decide +kernel, rfl, _, rfl, by decide +kernel, ?_⟩
  exact ⟨Validation.unknownField true "items[]", by decide +kernel, rfl⟩

end Registry

end DataMigration
