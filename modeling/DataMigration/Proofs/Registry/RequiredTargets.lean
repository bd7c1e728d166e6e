import DataMigration.Proofs.Mapping.Plantings
import DataMigration.Proofs.Registry.ReadableSources
import DataMigration.Proofs.Validation.Located

/-!
# Required fields that a mapping fills

The check of an entity mapping asks for a field mapping whose target is the required field, text by
text. A record has the field as soon as something is found under its name, and what a field mapping
writes below the field makes it. So the check also refuses mappings whose records have all that is
required, and which ones is said here.
-/

namespace DataMigration

namespace TargetRecord

/-- The walks along which a field of a record is read. Its first name is a key. -/
def walks (path : String) : List (List Path.Place) :=
  match Text.cut? "." path with
  | none => [[.key path]]
  | some (root, rest) => (Path.walks rest).map (.key root :: ·)

theorem exists_key_of_mem_walks {path : String} {ps : List Path.Place} (walk : ps ∈ walks path) :
    ∃ key qs, ps = .key key :: qs := by
  unfold walks at walk
  split at walk
  · exact ⟨path, [], List.mem_singleton.1 walk⟩
  · obtain ⟨qs, _, rfl⟩ := List.mem_map.1 walk
    exact ⟨_, qs, rfl⟩

/-- A record has at a field what one of its walks finds in the data. -/
theorem get?_eq_some_iff (r : TargetRecord) {path : String} {w : Value} :
    r.get? path = some w ↔ ∃ ps ∈ walks path, Path.found? (.obj r.data) ps = some w := by
  unfold get? walks
  cases Text.cut? "." path with
  | none =>
    have there : Path.at? (.obj r.data) [.key path] = Dict.get? r.data path :=
      Path.at?_singleton _ _
    simp only [List.mem_singleton, exists_eq_left, Path.found?, there]
  | some cut =>
    obtain ⟨root, rest⟩ := cut
    have first : ∀ ps, Path.found? (.obj r.data) (.key root :: ps) =
        Path.found? ((Dict.get? r.data root).getD .null) ps := fun ps => Path.found?_cons _ _ ps
    simp only [List.mem_map, exists_exists_and_eq_and, first]
    cases Dict.get? r.data root with
    | none => simp [Path.found?_null]
    | some v => exact Path.lookup_eq_some_iff

/-- A record has a field if one of its walks finds something in the data. -/
theorem isSome_get?_iff (r : TargetRecord) (path : String) :
    (r.get? path).isSome = true ↔
      ∃ ps ∈ walks path, (Path.found? (.obj r.data) ps).isSome = true := by
  simp only [Option.isSome_iff_exists, r.get?_eq_some_iff]
  exact ⟨fun ⟨w, ps, walk, found⟩ => ⟨ps, walk, w, found⟩,
    fun ⟨ps, walk, w, found⟩ => ⟨w, ps, walk, found⟩⟩

end TargetRecord

/-- A record has exactly the fields of which something remains that its field mappings planted. -/
theorem EntityMapping.isSome_get?_apply_iff (m : EntityMapping) (tools : Toolbox)
    (now : Calendar.Instant) (target : EntityRef) (first : SourceRecord)
    (others : List SourceRecord) :
    ∃ made, m.apply tools now target (first :: others) = .ok made ∧
      ∀ path, (made.get? path).isSome = true ↔ ∃ ps ∈ TargetRecord.walks path,
        Path.Remains (m.plantings tools (Payloads.ofRecords (first :: others))) ps := by
  obtain ⟨made, applied, planted⟩ := m.planted_apply tools now target first others
  refine ⟨made, applied, fun path => (made.isSome_get?_iff path).trans ?_⟩
  refine exists_congr fun ps => and_congr_right fun walk => ?_
  obtain ⟨key, qs, rfl⟩ := TargetRecord.exists_key_of_mem_walks walk
  have nothing : Path.found? (.obj []) (.key key :: qs) = none := by
    rw [Path.found?_cons]
    exact Path.found?_null qs
  rw [planted.isSome_found?_iff, nothing]
  simp

namespace Registry

/-- A required field is reported if no field mapping has it as its target. -/
theorem required_reported_iff {r : Registry} {m : EntityMapping} {source target : EntitySchema}
    (known : r.entitySchema? m.source = some source)
    (known' : r.entitySchema? m.target = some target) {name : String} :
    (∃ e ∈ (r.check m).errors, e.message = "Required target field has no mapping: " ++ name) ↔
      name ∈ target.requiredFields ∧ ∀ f ∈ m.fields, f.target ≠ name := by
  simp only [check, known, known', List.mem_append, List.mem_flatMap]
  constructor
  · rintro ⟨e, ⟨f, _, listed⟩ | unfilled, wording⟩
    · obtain ⟨path, _, _, own⟩ | own := message_of_mem_pathFindings listed
      · exact absurd (own.symm.trans wording)
          (Text.append_ne_append (c := 'S') (d := 'R') rfl rfl (by decide) _ _)
      · exact absurd (own.symm.trans wording)
          (Text.append_ne_append (c := 'T') (d := 'R') rfl rfl (by decide) _ _)
    · obtain ⟨name', unmapped, rfl⟩ := List.mem_map.1 unfilled
      obtain rfl := (String.append_right_inj _).1 wording
      obtain ⟨required, unmapped⟩ := List.mem_filter.1 unmapped
      refine ⟨required, fun f member same => ?_⟩
      rw [Bool.not_eq_true', List.any_eq_false] at unmapped
      exact unmapped f member (beq_iff_eq.2 same)
  · rintro ⟨required, unmapped⟩
    refine ⟨_, .inr (List.mem_map.2 ⟨name, List.mem_filter.2 ⟨required, ?_⟩, rfl⟩), rfl⟩
    rw [Bool.not_eq_true', List.any_eq_false]
    exact fun f member => mt beq_iff_eq.1 (unmapped f member)

/-- A required field that is reported is missing in the record, unless something remains of it that
field mappings with other targets have planted. -/
theorem reported_field_missing_iff (r : Registry) (m : EntityMapping)
    {source target : EntitySchema} (known : r.entitySchema? m.source = some source)
    (known' : r.entitySchema? m.target = some target) {name : String} {field : FieldSchema}
    (declared : (name, field) ∈ target.fields) (required : field.info.required = true)
    (rules : FieldRules) (tools : Toolbox) (now : Calendar.Instant) (ref : EntityRef)
    (first : SourceRecord) (others : List SourceRecord) :
    ∃ made, m.apply tools now ref (first :: others) = .ok made ∧
      (((∃ e ∈ (r.check m).errors,
            e.message = "Required target field has no mapping: " ++ name) →
          Validation.missing name ∈ Validation.fieldFindings rules field name (made.get? name)) ↔
        (∃ f ∈ m.fields, f.target = name) ∨
          ∀ ps ∈ TargetRecord.walks name,
            ¬ Path.Remains (m.plantings tools (Payloads.ofRecords (first :: others))) ps) := by
  obtain ⟨made, applied, has⟩ := m.isSome_get?_apply_iff tools now ref first others
  refine ⟨made, applied, ?_⟩
  have demanded : name ∈ target.requiredFields :=
    List.mem_map.2 ⟨(name, field), List.mem_filter.2 ⟨declared, required⟩, rfl⟩
  have absent : made.get? name = none ↔ ∀ ps ∈ TargetRecord.walks name,
      ¬ Path.Remains (m.plantings tools (Payloads.ofRecords (first :: others))) ps := by
    rw [← Option.not_isSome_iff_eq_none, has name]
    simp only [not_exists, not_and]
  rw [required_reported_iff known known', and_iff_right demanded,
    Validation.missing_mem_fieldFindings_iff, and_iff_right required, absent]
  rw [imp_iff_not_or]
  simp only [not_forall, not_not, exists_prop, ne_eq]

/-- An address that every contact has to have. -/
def addressField : FieldSchema :=
  .mk { name := "address", type := .object, required := true } none none

/-- A registry with the schemas of users and contacts. -/
def contactRegistry : Registry :=
  ({} : Registry)
    |>.addSchema {
      name := "shop"
      entities := [("user", { fields := [("town", .ofType "town" .string)] })] }
    |>.addSchema {
      name := "crm"
      entities := [("contact", { fields := [("address", addressField)] })] }

/-- Users become contacts, whose town goes to a path. -/
def townMapping (target : String) : EntityMapping where
  name := "users"
  source := ⟨"shop", "user"⟩
  target := ⟨"crm", "contact"⟩
  fields := [.copy "town" target]

/-- A user of a town. -/
def sampleUser : SourceRecord where
  id := "1"
  service := "shop"
  entity := "user"
  data := .obj [("town", .str "Oslo")]
  extractedAt := ⟨0, 0⟩

/-- Where the town goes to the metadata, the address is reported and missing. -/
theorem townMapping_leaves_out_address :
    (∃ e ∈ (contactRegistry.check (townMapping "meta_data.town")).errors,
      e.message = "Required target field has no mapping: address") ∧
    ∃ made, (townMapping "meta_data.town").apply {} ⟨0, 0⟩ ⟨"crm", "contact"⟩ [sampleUser] =
        .ok made ∧
      Validation.missing "address" ∈
        Validation.fieldFindings [] addressField "address" (made.get? "address") := by
  have reported : ∃ e ∈ (contactRegistry.check (townMapping "meta_data.town")).errors,
      e.message = "Required target field has no mapping: address" := by decide +kernel
  obtain ⟨made, applied, missing⟩ := reported_field_missing_iff contactRegistry
    (townMapping "meta_data.town") rfl rfl List.mem_cons_self rfl [] {} ⟨0, 0⟩
    ⟨"crm", "contact"⟩ sampleUser []
  refine ⟨reported, made, applied, missing.2 (.inr fun ps walk remains => ?_) reported⟩
  have walks : TargetRecord.walks "address" = [[.key "address"]] := by decide +kernel
  have plantings : (townMapping "meta_data.town").plantings {} (Payloads.ofRecords [sampleUser]) =
      [{ places := [.key "meta_data", .key "town"], value := .str "Oslo" }] := by decide +kernel
  rw [walks, List.mem_singleton] at walk
  rw [plantings, walk] at remains
  simp [Path.Remains, Path.Planting.Supplies, List.cons_eq_append_iff] at remains

/-- Where the town goes into the address, the address is reported too, and the record has it. -/
theorem townMapping_fills_address :
    (∃ e ∈ (contactRegistry.check (townMapping "address.town")).errors,
      e.message = "Required target field has no mapping: address") ∧
    ∃ made, (townMapping "address.town").apply {} ⟨0, 0⟩ ⟨"crm", "contact"⟩ [sampleUser] =
        .ok made ∧
      made.data = [("address", .obj [("town", .str "Oslo")])] ∧
      Validation.missing "address" ∉
        Validation.fieldFindings [] addressField "address" (made.get? "address") := by
  refine ⟨by decide +kernel, _, rfl, by decide +kernel, by decide +kernel⟩

end Registry

end DataMigration
