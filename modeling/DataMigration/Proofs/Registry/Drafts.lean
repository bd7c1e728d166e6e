import DataMigration.Proofs.Registry.WrittenFields
import DataMigration.Registry.Draft

/-!
# Drafted mappings under the check

A draft pairs declared fields, each as a whole name, and the check of an entity mapping reads the
names as paths. A declared source field is known to the check as it is written. A declared target
field is known by its first segment, so a draft is refused for a field that is declared without the
one that its name starts with. What else is reported is what the draft leaves open: the required
target fields for which the source has no name.
-/

namespace DataMigration.Registry

variable {given into : EntitySchema} {key : String}

/-! ## Fields whose names agree -/

/-- A source field and a target field have the same name, as names are compared. -/
def HasPartner (given : EntitySchema) (key : String) : Prop :=
  ∃ k ∈ Dict.keys given.fields, plainName k = plainName key

instance (given : EntitySchema) (key : String) : Decidable (HasPartner given key) :=
  inferInstanceAs (Decidable (∃ k ∈ Dict.keys given.fields, plainName k = plainName key))

theorem mem_keys_of_agreeing? {found : String} (agrees : agreeing? given key = some found) :
    found ∈ Dict.keys given.fields :=
  List.mem_reverse.1 (List.mem_of_find?_eq_some agrees)

theorem isSome_agreeing?_iff : (agreeing? given key).isSome = true ↔ HasPartner given key := by
  simp [agreeing?, HasPartner, List.find?_isSome]

/-! ## The field mappings of a draft -/

/-- The field mapping that copies a source field to the target field of the same name. -/
def pairing (found key : String) : FieldMapping :=
  { FieldMapping.copy found key with notes := "Auto-matched by name" }

/-- The field mappings between two schemas. -/
def pairings (given into : EntitySchema) : List FieldMapping :=
  (Dict.keys into.fields).filterMap fun key => (agreeing? given key).map fun found =>
    pairing found key

theorem draft_eq {r : Registry} {source target : EntityRef}
    (known : r.entitySchema? source = some given) (known' : r.entitySchema? target = some into) :
    ∃ m, r.draft source target = .ok m ∧ m.source = source ∧ m.target = target ∧
      m.fields = pairings given into := by
  rw [draft, known, known']
  exact ⟨_, rfl, rfl, rfl, rfl⟩

theorem mem_pairings_iff {f : FieldMapping} : f ∈ pairings given into ↔
    ∃ key ∈ Dict.keys into.fields, ∃ found, agreeing? given key = some found ∧
      pairing found key = f := by
  simp only [pairings, List.mem_filterMap, Option.map_eq_some_iff]

/-- A target field is drafted exactly if it has a partner. -/
theorem exists_pairing_iff : (∃ f ∈ pairings given into, f.target = key) ↔
    key ∈ Dict.keys into.fields ∧ HasPartner given key := by
  simp only [mem_pairings_iff, ← isSome_agreeing?_iff, Option.isSome_iff_exists]
  constructor
  · rintro ⟨_, ⟨key', declared, found, agrees, rfl⟩, rfl⟩
    exact ⟨declared, found, agrees⟩
  · rintro ⟨declared, found, agrees⟩
    exact ⟨_, ⟨key, declared, found, agrees, rfl⟩, rfl⟩

/-! ## What the check finds -/

/-- The finding about a target field that is not declared. -/
def targetMissing (key : String) : Finding where
  field := key
  message := "Target field not found: " ++ key
  kind := .unknownField

/-- A drafted field mapping is refused for its target only. -/
theorem pathFindings_pairing {found : String} (agrees : agreeing? given key = some found) :
    pathFindings given into (pairing found key) =
      if hasTarget into key then [] else [targetMissing key] := by
  have declared : hasSource given found = true :=
    Bool.or_eq_true_iff.2 (.inl (Dict.mem_keys_iff.1 (mem_keys_of_agreeing? agrees)))
  have source : (pairing found key).source = some found := rfl
  simp only [pathFindings, source, declared, if_true, List.nil_append]
  rfl

theorem mem_pathFindings_pairings_iff {e : Finding} :
    e ∈ (pairings given into).flatMap (pathFindings given into) ↔
      ∃ key ∈ Dict.keys into.fields, HasPartner given key ∧ hasTarget into key = false ∧
        e = targetMissing key := by
  simp only [List.mem_flatMap, mem_pairings_iff, ← isSome_agreeing?_iff, Option.isSome_iff_exists]
  constructor
  · rintro ⟨_, ⟨key, declared, found, agrees, rfl⟩, listed⟩
    rw [pathFindings_pairing agrees] at listed
    split at listed
    · cases listed
    · rename_i unknown
      exact ⟨key, declared, ⟨found, agrees⟩, eq_false_of_ne_true unknown,
        List.mem_singleton.1 listed⟩
  · rintro ⟨key, declared, ⟨found, agrees⟩, unknown, rfl⟩
    refine ⟨_, ⟨key, declared, found, agrees, rfl⟩, ?_⟩
    rw [pathFindings_pairing agrees, unknown]
    exact List.mem_singleton_self _

theorem field_unfilledFindings (m : EntityMapping) (filled : m.fields = pairings given into) :
    (unfilledFindings into m).map Finding.field =
      into.requiredFields.filter fun name => !decide (HasPartner given name) := by
  rw [unfilledFindings, List.map_map, filled]
  refine (List.map_id _).trans (List.filter_congr fun name required => ?_)
  have declared : name ∈ Dict.keys into.fields := (List.filter_sublist.map _).subset required
  congr 1
  rw [Bool.eq_iff_iff, List.any_eq_true, decide_eq_true_eq]
  simp only [beq_iff_eq]
  rw [exists_pairing_iff, and_iff_right declared]

/-- A draft between two schemas is never refused for a source field. It is refused for a target
field only if the schema does not declare the one that its name starts with. For such a field it is
refused; where a bracket that is no index stands before the first dot, it is left open which field
the name starts with. The required fields that are reported are those without a partner. -/
theorem draft_checked {r : Registry} {source target : EntityRef}
    (known : r.entitySchema? source = some given) (known' : r.entitySchema? target = some into) :
    ∃ m, r.draft source target = .ok m ∧
      (∀ e ∈ (r.check m).errors, e.kind = .required ∨ ∃ key ∈ Dict.keys into.fields,
        HasPartner given key ∧ Dict.contains into.fields (Path.root key) = false ∧
          Text.startsWith "meta_data" key = false ∧ e = targetMissing key) ∧
      (∀ key ∈ Dict.keys into.fields, HasPartner given key → ¬ Path.IsStray key →
        Dict.contains into.fields (Path.root key) = false →
          Text.startsWith "meta_data" key = false → targetMissing key ∈ (r.check m).errors) ∧
      (((r.check m).errors.filter fun e => e.kind == .required).map Finding.field =
        into.requiredFields.filter fun name => !decide (HasPartner given name)) := by
  obtain ⟨m, drafted, source_eq, target_eq, filled⟩ := draft_eq known known'
  have errors : (r.check m).errors =
      (pairings given into).flatMap (pathFindings given into) ++ unfilledFindings into m := by
    simp only [check, source_eq, target_eq, known, known', filled]
  have unfilled : ∀ e ∈ unfilledFindings into m, e.kind = .required := by
    intro e listed
    obtain ⟨name, _, rfl⟩ := List.mem_map.1 listed
    rfl
  have unknown : ∀ key, hasTarget into key = false ↔
      Dict.contains into.fields (Path.root key) = false ∧
        Text.startsWith "meta_data" key = false := fun key => Bool.or_eq_false_iff
  refine ⟨m, drafted, ?_, ?_, ?_⟩
  · intro e listed
    rw [errors, List.mem_append, mem_pathFindings_pairings_iff] at listed
    obtain ⟨key, declared, partner, missing, rfl⟩ | listed := listed
    · exact .inr ⟨key, declared, partner, ((unknown key).1 missing).1, ((unknown key).1 missing).2,
        rfl⟩
    · exact .inl (unfilled e listed)
  · intro key declared partner _ rootless bound
    rw [errors, List.mem_append, mem_pathFindings_pairings_iff]
    exact .inl ⟨key, declared, partner, (unknown key).2 ⟨rootless, bound⟩, rfl⟩
  · have paths : ((pairings given into).flatMap (pathFindings given into)).filter
        (fun e => e.kind == .required) = [] := by
      refine List.filter_eq_nil_iff.2 fun e listed => ?_
      obtain ⟨key, _, _, _, rfl⟩ := mem_pathFindings_pairings_iff.1 listed
      exact Bool.false_ne_true
    have rest : (unfilledFindings into m).filter (fun e => e.kind == .required) =
        unfilledFindings into m :=
      List.filter_eq_self.2 fun e listed => beq_iff_eq.2 (unfilled e listed)
    rw [errors, List.filter_append, paths, List.nil_append, rest, field_unfilledFindings m filled]

/-- What a shop knows about its users. -/
def userSchema : EntitySchema where
  fields := [("E_Mail", .ofType "E_Mail" .string), ("address.town", .ofType "town" .string)]

/-- Contacts with a required number, and with a town whose address is not declared. -/
def personSchema : EntitySchema where
  fields := [("address.town", .ofType "town" .string), ("email", .ofType "email" .string),
    ("id", .mk { name := "id", required := true } none none)]

/-- A registry with the schemas of users and contacts. -/
def personRegistry : Registry :=
  ({} : Registry)
    |>.addSchema { name := "shop", entities := [("user", userSchema)] }
    |>.addSchema { name := "crm", entities := [("contact", personSchema)] }

/-- Of the three fields of a contact the number is reported as required, and it alone. -/
theorem person_draft_checked :
    personRegistry.entitySchema? ⟨"shop", "user"⟩ = some userSchema ∧
    personRegistry.entitySchema? ⟨"crm", "contact"⟩ = some personSchema ∧
    ∃ m, personRegistry.draft ⟨"shop", "user"⟩ ⟨"crm", "contact"⟩ = .ok m ∧
      ((personRegistry.check m).errors.filter fun e => e.kind == .required).map Finding.field =
        ["id"] ∧
      targetMissing "address.town" ∈ (personRegistry.check m).errors := by
  have known : personRegistry.entitySchema? ⟨"shop", "user"⟩ = some userSchema := rfl
  have known' : personRegistry.entitySchema? ⟨"crm", "contact"⟩ = some personSchema := rfl
  obtain ⟨m, drafted, _, refused, required⟩ := draft_checked known known'
  have regular : ¬ Path.IsStray "address.town" := fun stray =>
    absurd stray.1 (by decide +kernel)
  refine ⟨known, known', m, drafted, required.trans (by decide +kernel), ?_⟩
  exact refused "address.town" (by decide +kernel) (by decide +kernel) regular
    (by decide +kernel) (by decide +kernel)

/-- The town of a contact is declared and drafted, and the check does not find it. -/
theorem person_draft_refused :
    ∃ m, personRegistry.draft ⟨"shop", "user"⟩ ⟨"crm", "contact"⟩ = .ok m ∧
      Dict.contains personSchema.fields "address.town" = true ∧
      (m.fields.map fun f => (f.source, f.target)) =
        [(some "address.town", "address.town"), (some "E_Mail", "email")] ∧
      (∃ e ∈ (personRegistry.check m).errors, e.kind = .unknownField ∧
        e.message = "Target field not found: address.town") := by
  refine ⟨_, rfl, by decide +kernel, by decide +kernel, ?_⟩
  exact ⟨targetMissing "address.town", by decide +kernel, rfl, rfl⟩

end DataMigration.Registry
