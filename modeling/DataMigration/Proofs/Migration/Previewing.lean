import DataMigration.Migration.Preview
import DataMigration.Proofs.Mapping.Reading
import DataMigration.Proofs.Migration.Origins

/-!
# What a preview shows

A preview applies an entity mapping to one payload with the labels of the mapping at hand, whether
or not the entity mapping is one of its own, and with the names as they are asked for. So it shows
what a run makes of the payload as long as the entity mapping finds the same labels there, and the
names lead to the same service and the same schema.
-/

namespace DataMigration.Migration

variable {σ : Type} (m : Migration σ)

/-- The record that a run with a mapping makes of a source record, once validation has looked at
it. -/
def inspected (mapping : Mapping) (em : EntityMapping) (source : SourceRecord) :
    Except TransformError TargetRecord :=
  (em.apply (m.toolbox (some mapping)) m.now em.target [source]).map
    (m.validated (m.registry.entitySchema? em.target))

variable {m}

/-- A run keeps the record if validation has found no error. -/
theorem becomes_of_inspected {mapping : Mapping} {em : EntityMapping} {source : SourceRecord}
    {r : TargetRecord} (seen : m.inspected mapping em source = .ok r) :
    m.becomes mapping em source = if r.isValid then [{ r with status := .validated }] else [] := by
  obtain ⟨made, applied⟩ :=
    em.apply_singleton (m.toolbox (some mapping)) m.now em.target source
  have same : m.validated (m.registry.entitySchema? em.target) made = r := by
    rw [inspected, applied] at seen
    exact Except.ok.inj seen
  rw [becomes, transformed, applied]
  simp only [Except.toOption, Option.toList_some, List.flatMap_singleton, accepted, same]

theorem validated_agrees {schema : Option EntitySchema} {r r' : TargetRecord} (h : r.Agrees r') :
    (m.validated schema r).Agrees (m.validated schema r') := by
  cases schema with
  | none => exact h
  | some schema =>
    refine ⟨h.id, h.data, h.warnings, ?_⟩
    simp only [validated, h.findings, Validation.findings_congr m.rules schema _ h.data]

/-- What a record has become stands among the records that the run has for its target. -/
theorem becomes_infix_recordsOf {mapping : Mapping} {em : EntityMapping} {source : SourceRecord}
    {sources : List SourceRecord} {s t : MigrationState σ}
    (prepared : m.prepare mapping (adopt mapping (m.fresh s)) = (t, none))
    (fed : (em, sources) ∈ m.feeds mapping s) (member : source ∈ sources) :
    m.becomes mapping em source <:+: recordsOf t.working em.target := by
  rw [m.recordsOf_prepare prepared]
  have chosen : (em, sources) ∈ (m.feeds mapping s).filter fun p => p.1.target = em.target :=
    List.mem_filter.2 ⟨fed, decide_eq_true rfl⟩
  have inside : m.becomes mapping em source <:+: sources.flatMap (m.becomes mapping em) :=
    List.infix_of_mem_flatten (List.mem_map_of_mem member)
  have whole := List.infix_of_mem_flatten
    (List.mem_map_of_mem (f := fun p => p.2.flatMap (m.becomes mapping p.1)) chosen)
  exact inside.trans whole

variable (m) in
/-- A target record shows what a run with a mapping makes of a payload with an id: whatever record
of the payload an entity mapping is fed, validation finds the same about what it becomes, and the
run keeps that among the records of its target exactly when the shown record is valid. -/
def Shows (mapping : Mapping) (em : EntityMapping) (id : String) (payload : Value)
    (p : TargetRecord) : Prop :=
  ∀ record : SourceRecord, record.id = id → record.data = payload → record.origin = em.source →
    ∃ r, m.inspected mapping em record = .ok r ∧ r.Agrees p ∧
      m.becomes mapping em record = (if p.isValid then [{ r with status := .validated }] else []) ∧
      ∀ s t sources, m.prepare mapping (adopt mapping (m.fresh s)) = (t, none) →
        (em, sources) ∈ m.feeds mapping s → record ∈ sources →
        m.becomes mapping em record <:+: recordsOf t.working em.target

/-- The record that a preview applies an entity mapping to. -/
def previewed (m : Migration σ) (source : EntityRef) (id : String) (payload : Value) :
    SourceRecord where
  id := id
  service := source.service
  entity := source.entity
  data := payload
  extractedAt := m.now

theorem preview_of_selected {supplied : Option Mapping} {em : EntityMapping} {payload : Value}
    {id : String} {source target : EntityRef} {made : TargetRecord}
    (selected : m.previewMapping? supplied source target = some em)
    (identified : payloadId? payload = some id)
    (applied : em.apply (m.toolbox supplied) m.now target [m.previewed source id payload] =
      .ok made) :
    m.preview supplied payload source target =
      .ok (m.validated (m.registry.entitySchema? target) made) := by
  have asked : em.apply (m.toolbox supplied) m.now target [{
      id := (payloadId? payload).getD "preview"
      service := source.service
      entity := source.entity
      data := payload
      extractedAt := m.now }] = .ok made := by
    rw [identified]
    exact applied
  simp only [preview, selected, asked]

/-- What an entity mapping makes of a payload with the tables at hand shows what a run makes of it
with tables in which the entity mapping finds the same, for a service of the same name and with the
same schema. -/
theorem shows_of_readsAlike {supplied : Option Mapping} {mapping : Mapping} {em : EntityMapping}
    {payload : Value} {id : String} {source target : EntityRef} {made : TargetRecord}
    (applied : em.apply (m.toolbox supplied) m.now target [m.previewed source id payload] =
      .ok made)
    (service : source.service = em.source.service)
    (schema : m.registry.entitySchema? target = m.registry.entitySchema? em.target)
    (reads : ∀ f ∈ em.fields, f.ReadsAlike m.operators (m.toolbox (some mapping)).tables
      (m.toolbox supplied).tables) :
    m.Shows mapping em id payload (m.validated (m.registry.entitySchema? target) made) := by
  intro record own data origin
  have number : (m.previewed source id payload).id = record.id := own.symm
  have place : (m.previewed source id payload).service = record.service :=
    service.trans (congrArg EntityRef.service origin).symm
  have content : (m.previewed source id payload).data = record.data := data.symm
  obtain ⟨r, p, transformed, applied', agrees⟩ := em.apply_agrees (m.toolbox (some mapping))
    (m.toolbox supplied) rfl rfl reads m.now em.target target number place content
  obtain rfl : p = made := Except.ok.inj (applied'.symm.trans applied)
  have seen : m.inspected mapping em record =
      .ok (m.validated (m.registry.entitySchema? em.target) r) := by
    rw [inspected, transformed]
    rfl
  have shows : (m.validated (m.registry.entitySchema? em.target) r).Agrees
      (m.validated (m.registry.entitySchema? target) p) := by
    rw [schema]
    exact validated_agrees agrees
  refine ⟨_, seen, shows, ?_, ?_⟩
  · rw [becomes_of_inspected seen, shows.isValid]
  · intro s t sources prepared fed member
    exact becomes_infix_recordsOf prepared fed member

/-- A preview always shows what a run would make of the payload with the labels at hand and under
the names that are asked for. So it shows what a run with another mapping makes of it, if the entity
mapping finds the same labels there, and the names that are asked for are those of the same service
and lead to the same schema. -/
theorem preview_shows_run (m : Migration σ) (supplied : Option Mapping) (mapping : Mapping)
    (em : EntityMapping) (payload : Value) (id : String) (source target : EntityRef)
    (selected : m.previewMapping? supplied source target = some em)
    (identified : payloadId? payload = some id) :
    ∃ p, m.preview supplied payload source target = .ok p ∧
      m.Shows { mapping with labels := (supplied.map Mapping.labels).getD [] }
        { em with source, target } id payload p ∧
      (source.service = em.source.service →
        m.registry.entitySchema? target = m.registry.entitySchema? em.target →
        (∀ f ∈ em.fields, f.ReadsAlike m.operators (m.toolbox (some mapping)).tables
          (m.toolbox supplied).tables) →
        m.Shows mapping em id payload p) := by
  obtain ⟨made, applied⟩ :=
    em.apply_singleton (m.toolbox supplied) m.now target (m.previewed source id payload)
  refine ⟨_, preview_of_selected selected identified applied, ?_, ?_⟩
  · -- under the names that are asked for, nothing but the labels could differ
    have applied' : { em with source, target }.apply (m.toolbox supplied) m.now target
        [m.previewed source id payload] = .ok made := applied
    exact shows_of_readsAlike applied' rfl rfl fun f _ => .of_labels rfl f
  · intro service schema reads
    exact shows_of_readsAlike applied service schema reads

/-- Users become contacts, and their tiers are named by a table of labels. -/
def tierUsers : EntityMapping where
  name := "users"
  source := ⟨"shop", "user"⟩
  target := ⟨"crm", "contact"⟩
  fields := [.copy "mail" "email",
    { source := some "tier", target := "tier", operator := .enumMap
      config := [("status_mapping", .str "tiers")] }]

/-- The mapping of the users, with the table of labels. -/
def tierMapping : Mapping where
  name := "tiers"
  labels := [("tiers", [("2", "gold")])]
  entities := [tierUsers]

/-- A migration that finds the mapping of the users among the registered ones. -/
def tierMigration : Migration Memory where
  config := { name := "tiers", targetService := "crm" }
  registry := ({} : Registry).addMapping tierMapping
  now := ⟨0, 0⟩

/-- A user of the second tier. -/
def tierUser : Value := .obj [("id", .str "1"), ("mail", .str "ann@x.org"), ("tier", .str "2")]

/-- With the same labels in the mapping at hand, a preview names the tier as a run does. -/
theorem tierMigration_preview_shows_run :
    let supplied : Mapping := { name := "orders", labels := tierMapping.labels }
    let asked := tierMigration.preview (some supplied) tierUser tierUsers.source tierUsers.target
    asked.toOption.map TargetRecord.data =
        some [("email", .str "ann@x.org"), ("tier", .str "gold")] ∧
      ∃ p, asked = .ok p ∧ tierMigration.Shows tierMapping tierUsers "1" tierUser p := by
  intro supplied asked
  obtain ⟨p, previewed, _, shows⟩ := preview_shows_run tierMigration (some supplied) tierMapping
    tierUsers tierUser "1" tierUsers.source tierUsers.target (by decide +kernel) rfl
  refine ⟨by decide +kernel, p, previewed, shows rfl rfl ?_⟩
  intro f _
  exact .of_labels rfl f

/-- Without a mapping at hand, a preview leaves out the tier that a run names. -/
theorem tierMigration_preview_without_labels :
    tierMigration.previewMapping? none tierUsers.source tierUsers.target = some tierUsers ∧
    ∃ p, tierMigration.preview none tierUser tierUsers.source tierUsers.target = .ok p ∧
      p.data = [("email", .str "ann@x.org")] ∧
      ¬ tierMigration.Shows tierMapping tierUsers "1" tierUser p := by
  let record := tierMigration.previewed tierUsers.source "1" tierUser
  have asked : (tierMigration.preview none tierUser tierUsers.source
      tierUsers.target).toOption.map TargetRecord.data = some [("email", .str "ann@x.org")] := by
    decide +kernel
  have made : (tierMigration.inspected tierMapping tierUsers record).toOption.map
      TargetRecord.data = some [("email", .str "ann@x.org"), ("tier", .str "gold")] := by
    decide +kernel
  refine ⟨by decide +kernel, ?_⟩
  cases previewed : tierMigration.preview none tierUser tierUsers.source tierUsers.target with
  | error e =>
    rw [previewed] at asked
    cases asked
  | ok p =>
    rw [previewed] at asked
    have data : p.data = [("email", .str "ann@x.org")] := Option.some.inj asked
    refine ⟨p, rfl, data, ?_⟩
    intro shows
    obtain ⟨r, seen, agrees, _⟩ := shows record rfl rfl rfl
    rw [seen] at made
    have named : r.data = [("email", .str "ann@x.org"), ("tier", .str "gold")] :=
      Option.some.inj made
    have same := agrees.data
    rw [data, named] at same
    exact absurd same (by decide)

end DataMigration.Migration
