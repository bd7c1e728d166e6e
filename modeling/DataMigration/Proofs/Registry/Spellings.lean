import DataMigration.Proofs.Dict
import DataMigration.Proofs.Text
import DataMigration.Proofs.Text.Case
import DataMigration.Registry.Preflight

/-!
# Names in any case

Services and mappings are kept by the lower-case forms of their names, and an entity mapping is
compared with what is asked for without regard to case. So these are found under every spelling.
The entities of a service are kept by their names as they are written: an entity is found under
every spelling only if it is declared under all of them. Where this is not so, an entity mapping
may be found for a query of which its own spelling has no schema, and then it is not checked.
-/

namespace DataMigration

namespace Text

variable {a b c : String}

theorem sameIgnoringCase_symm (same : sameIgnoringCase a b = true) :
    sameIgnoringCase b a = true :=
  sameIgnoringCase_iff.2 (sameIgnoringCase_iff.1 same).symm

/-- A text is the same as one of two spellings exactly if it is the same as the other. -/
theorem sameIgnoringCase_congr (c : String) (same : sameIgnoringCase a b = true) :
    sameIgnoringCase c a = sameIgnoringCase c b := by
  rw [sameIgnoringCase, sameIgnoringCase, sameIgnoringCase_iff.1 same]

end Text

theorem EntityRef.same_iff {a b : EntityRef} : a.same b = true ↔
    Text.sameIgnoringCase a.service b.service = true ∧
      Text.sameIgnoringCase a.entity b.entity = true :=
  Bool.and_eq_true_iff

theorem EntityRef.same_congr {a b : EntityRef} (c : EntityRef) (same : a.same b = true) :
    c.same a = c.same b := by
  obtain ⟨service, entity⟩ := same_iff.1 same
  rw [EntityRef.same, EntityRef.same, Text.sameIgnoringCase_congr _ service,
    Text.sameIgnoringCase_congr _ entity]

/-- Each entity is declared under every spelling of its name, and each time alike. -/
def ServiceSchema.HasAllSpellings (s : ServiceSchema) : Prop :=
  ∀ name schema, Dict.get? s.entities name = some schema →
    ∀ name', Text.sameIgnoringCase name name' = true → Dict.get? s.entities name' = some schema

/-- Entities whose names have no ASCII letters are declared under every spelling. -/
theorem ServiceSchema.hasAllSpellings_of_plain {s : ServiceSchema}
    (plain : ∀ name ∈ Dict.keys s.entities, ∀ c ∈ name.toList, c.isAlpha = false) :
    s.HasAllSpellings := by
  intro name schema found name' same
  have member : name ∈ Dict.keys s.entities := List.mem_map_of_mem (Dict.mem_of_get? found)
  rwa [← Text.eq_of_sameIgnoringCase (plain name member) same]

namespace Registry

variable {r : Registry}

theorem schema?_congr {a b : String} (same : Text.sameIgnoringCase a b = true) :
    r.schema? a = r.schema? b := by
  rw [schema?, schema?, Text.toLower_congr same]

theorem mapping?_congr {a b : String} (same : Text.sameIgnoringCase a b = true) :
    r.mapping? a = r.mapping? b := by
  rw [mapping?, mapping?, Text.toLower_congr same]

theorem entityMapping?_congr {source source' target target' : EntityRef}
    (sources : source.same source' = true) (targets : target.same target' = true) :
    r.entityMapping? source target = r.entityMapping? source' target' := by
  simp only [entityMapping?, EntityMapping.leads, EntityRef.same_congr _ sources,
    EntityRef.same_congr _ targets]

/-- An entity mapping that is found leads between spellings of the entities asked for. -/
theorem same_of_entityMapping? {source target : EntityRef} {m : EntityMapping}
    (found : r.entityMapping? source target = some m) :
    m.source.same source = true ∧ m.target.same target = true := by
  unfold entityMapping? at found
  have leads := List.find?_some found
  exact Bool.and_eq_true_iff.1 leads

theorem entitySchema?_congr {e e' : EntityRef}
    (all : ∀ service schema, r.schema? service = some schema → schema.HasAllSpellings)
    (same : e.same e' = true) : r.entitySchema? e = r.entitySchema? e' := by
  obtain ⟨services, entities⟩ := EntityRef.same_iff.1 same
  rw [entitySchema?, entitySchema?, schema?_congr services]
  cases known : r.schema? e'.service with
  | none => rfl
  | some s =>
    rw [Option.bind_some, Option.bind_some]
    have spelled := all _ s known
    cases declared : Dict.get? s.entities e.entity with
    | some schema => exact (spelled _ schema declared _ entities).symm
    | none =>
      refine (Option.eq_none_iff_forall_ne_some.2 fun schema declared' => ?_).symm
      have own := spelled _ schema declared' _ (Text.sameIgnoringCase_symm entities)
      rw [declared] at own
      cases own

/-- The schemas of services, the mappings and the entity mappings are found under every spelling of
the names asked for. The schemas of entities are found so exactly if each entity of a registered
service is declared under all spellings of its name, and then an entity mapping that is found for a
query is checked against the schemas of the query. -/
theorem names_ignore_case_iff (r : Registry) :
    (∀ a b : String, Text.sameIgnoringCase a b = true →
      r.schema? a = r.schema? b ∧ r.mapping? a = r.mapping? b ∧
        ∀ entity, r.entitySchema? ⟨a, entity⟩ = r.entitySchema? ⟨b, entity⟩) ∧
    (∀ source source' target target' : EntityRef,
      source.same source' = true → target.same target' = true →
        r.entityMapping? source target = r.entityMapping? source' target') ∧
    ((∀ e e' : EntityRef, e.same e' = true → r.entitySchema? e = r.entitySchema? e') ↔
      ∀ service schema, r.schema? service = some schema → schema.HasAllSpellings) ∧
    ((∀ service schema, r.schema? service = some schema → schema.HasAllSpellings) →
      ∀ source target m, r.entityMapping? source target = some m →
        r.entitySchema? m.source = r.entitySchema? source ∧
          r.entitySchema? m.target = r.entitySchema? target) := by
  refine ⟨fun a b same => ⟨schema?_congr same, mapping?_congr same, fun entity => ?_⟩,
    fun _ _ _ _ => entityMapping?_congr, ⟨?_, fun all _ _ => entitySchema?_congr all⟩, ?_⟩
  · rw [entitySchema?, entitySchema?, schema?_congr same]
  · intro ignores service s known name schema declared name' same
    have asked : EntityRef.same ⟨service, name⟩ ⟨service, name'⟩ = true :=
      EntityRef.same_iff.2 ⟨Text.sameIgnoringCase_refl service, same⟩
    have alike := ignores _ _ asked
    simp only [entitySchema?, known, Option.bind_some] at alike
    exact alike.symm.trans declared
  · intro all source target m found
    obtain ⟨sources, targets⟩ := same_of_entityMapping? found
    exact ⟨entitySchema?_congr all sources, entitySchema?_congr all targets⟩

/-- An entity of a service is copied to itself. -/
def mirrorMapping (entity : String) : EntityMapping where
  name := "mirror"
  source := ⟨"stripe", entity⟩
  target := ⟨"stripe", entity⟩

/-- A registry with the schema of one entity, and with a mapping that spells its name. -/
def mirrorRegistry (declared spelled : String) : Registry :=
  ({} : Registry)
    |>.addSchema { name := "Stripe", entities := [(declared, {})] }
    |>.addMapping { name := "mirrors", entities := [mirrorMapping spelled] }

/-- Years are spelled in one way, so an entity that is named by one is found in any case of its
service. -/
theorem year_found_in_any_case :
    Text.sameIgnoringCase "stripe" "STRIPE" = true ∧
    (∀ service schema, (mirrorRegistry "2024" "2024").schema? service = some schema →
      schema.HasAllSpellings) ∧
    (mirrorRegistry "2024" "2024").entityMapping? ⟨"STRIPE", "2024"⟩ ⟨"Stripe", "2024"⟩ =
      some (mirrorMapping "2024") ∧
    (mirrorRegistry "2024" "2024").entitySchema? (mirrorMapping "2024").source =
      (mirrorRegistry "2024" "2024").entitySchema? ⟨"STRIPE", "2024"⟩ ∧
    ((mirrorRegistry "2024" "2024").entitySchema? ⟨"STRIPE", "2024"⟩).isSome = true := by
  have all : ∀ service schema, (mirrorRegistry "2024" "2024").schema? service = some schema →
      schema.HasAllSpellings := by
    intro service schema known
    have listed : (Text.toLower service, schema) ∈ (mirrorRegistry "2024" "2024").schemas :=
      Dict.mem_of_get? known
    obtain ⟨_, rfl⟩ := Prod.mk.inj (List.mem_singleton.1 listed)
    refine ServiceSchema.hasAllSpellings_of_plain fun name member => ?_
    obtain rfl := List.mem_singleton.1 member
    exact Text.all_outside_iff.1 (by decide)
  have found : (mirrorRegistry "2024" "2024").entityMapping? ⟨"STRIPE", "2024"⟩
      ⟨"Stripe", "2024"⟩ = some (mirrorMapping "2024") := by
    decide +kernel
  have checked := (names_ignore_case_iff (mirrorRegistry "2024" "2024")).2.2.2 all _ _ _ found
  exact ⟨by decide, all, found, checked.1, by decide +kernel⟩

/-- Customers are found under one spelling only. A mapping that spells them differently is found for
a query in the spelling of the schema, and has no schema itself. -/
theorem customer_missed_in_other_case :
    EntityRef.same ⟨"stripe", "customer"⟩ ⟨"stripe", "Customer"⟩ = true ∧
    ((mirrorRegistry "customer" "Customer").entitySchema? ⟨"stripe", "customer"⟩).isSome = true ∧
    ((mirrorRegistry "customer" "Customer").entitySchema? ⟨"stripe", "Customer"⟩).isNone = true ∧
    (mirrorRegistry "customer" "Customer").entityMapping? ⟨"stripe", "customer"⟩
      ⟨"stripe", "customer"⟩ = some (mirrorMapping "Customer") ∧
    (((mirrorRegistry "customer" "Customer").check (mirrorMapping "Customer")).errors.map
      fun e => e.message) =
        ["Source schema not found: stripe.Customer", "Target schema not found: stripe.Customer"] := by
  decide +kernel

end Registry

end DataMigration
