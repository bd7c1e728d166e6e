import DataMigration.Proofs.Migration.Delivery
import DataMigration.Proofs.Validation.Merging

/-!
# Records that may be loaded

The transformation makes records whose findings are all errors, and validation drops every record
with an error. So the working set that loading begins with holds accepted records only. They stay
accepted when duplicates are merged, and therefore every record that is sent is acceptable as it is
sent.
-/

namespace DataMigration

variable {σ : Type}

/-- A record as the transformation makes it for an entity. -/
structure TargetRecord.Made (target : EntityRef) (r : TargetRecord) : Prop where
  service : r.service = target.service
  entity : r.entity = target.entity
  errors : ∀ f ∈ r.findings, f.isError = true

namespace EntityMapping

theorem step_made {target : EntityRef} {r : TargetRecord} (tools : Toolbox) (payloads : Payloads)
    (field : FieldMapping) (made : r.Made target) : (step tools payloads r field).Made target := by
  simp only [step]
  split
  · refine ⟨made.service, made.entity, fun f h => ?_⟩
    obtain old | new := List.mem_append.1 h
    · exact made.errors f old
    · obtain ⟨e, _, rfl⟩ := List.mem_map.1 new
      rfl
  · exact made

/-- Applying an entity mapping leaves errors only. -/
theorem apply_made {em : EntityMapping} {tools : Toolbox} {now : Calendar.Instant}
    {target : EntityRef} {sources : List SourceRecord} {r : TargetRecord}
    (h : em.apply tools now target sources = .ok r) : r.Made target := by
  have all : ∀ (fields : List FieldMapping) (payloads : Payloads) (r : TargetRecord),
      r.Made target → (fields.foldl (step tools payloads) r).Made target := by
    intro fields payloads
    induction fields with
    | nil => exact fun r made => made
    | cons field fields ih => exact fun r made => ih _ (step_made tools payloads field made)
  unfold apply at h
  split at h
  · cases h
  · rename_i first rest
    let payloads := Payloads.ofRecords (first :: rest)
    have start : TargetRecord.Made target
        { id := em.targetId tools first payloads
          service := target.service
          entity := target.entity
          sources := (first :: rest).map SourceRef.ofRecord
          transformedAt := now } := ⟨rfl, rfl, fun _ none => nomatch none⟩
    have made := all em.fields payloads _ start
    cases h
    exact ⟨made.service, made.entity, made.errors⟩

end EntityMapping

/-- A record passed validation as it is, whatever was done to it since. -/
structure Migration.Loadable (m : Migration σ) (r : TargetRecord) : Prop where
  valid : r.isValid = true
  validated : r.status = .validated
  transformed : Migration.transformFindings r = []
  accepted : ∀ schema, m.registry.entitySchema? ⟨r.service, r.entity⟩ = some schema →
    Acceptable (Validation.findings m.rules schema m.config.strictValidation r)

/-- The records of working sets have a property, given the entity of their set. -/
def WorkingSet.All (P : EntityRef → TargetRecord → Prop) (sets : List WorkingSet) : Prop :=
  ∀ set ∈ sets, ∀ r ∈ set.records, P set.target r

namespace Migration

variable {m : Migration σ}

/-! ## Transformation -/

theorem transformOne_made {em : EntityMapping} {tools : Toolbox} {w : Work σ}
    {source : SourceRecord} (own : ∀ r ∈ w.records, r.Made em.target) :
    ∀ r ∈ (m.transformOne em tools w source).records, r.Made em.target := by
  have kept : ∀ made : TargetRecord, em.apply tools m.now em.target [source] = .ok made →
      ∀ r ∈ w.records ++ [made], r.Made em.target := by
    intro made h r member
    obtain old | new := List.mem_append.1 member
    · exact own r old
    · exact List.mem_singleton.1 new ▸ EntityMapping.apply_made h
  simp only [transformOne]
  split
  · rename_i made h
    split <;> exact kept made h
  · exact own

theorem transformRecords_made (em : EntityMapping) (tools : Toolbox) (sources : List SourceRecord)
    (s : MigrationState σ) (step : Step) :
    ∀ r ∈ (m.transformRecords em tools sources s step).1.records, r.Made em.target := by
  let R (v w : Work σ) : Prop :=
    (∀ r ∈ v.records, r.Made em.target) → ∀ r ∈ w.records, r.Made em.target
  have batch : ∀ (w : Work σ) (batch : List SourceRecord),
      R w (m.transformBatch em tools sources.length w batch).1 :=
    fun w batch => foldl_keeps (R := R) (fun _ own => own) (fun h h' own => h' (h own)) batch
      (fun _ _ _ => transformOne_made) w
  exact overBatches_keeps (R := R) (fun _ own => own) (fun h h' own => h' (h own))
    (batches m.config.batchSize sources) (fun w part _ => batch w part) { state := s, step }
    (fun _ none => nomatch none)

theorem addRecords_all {P : EntityRef → TargetRecord → Prop} {target : EntityRef}
    {records : List TargetRecord} {sets : List WorkingSet} (own : WorkingSet.All P sets)
    (new : ∀ r ∈ records, P target r) : WorkingSet.All P (addRecords target records sets) := by
  induction sets with
  | nil =>
    intro set member
    rw [List.mem_singleton.1 member]
    exact new
  | cons set sets ih =>
    have others : WorkingSet.All P sets := fun set member => own set (List.mem_cons_of_mem _ member)
    simp only [addRecords]
    split
    · rename_i same
      intro set' member
      obtain rfl | later := List.mem_cons.1 member
      · intro r h
        obtain old | new' := List.mem_append.1 h
        · exact own set List.mem_cons_self r old
        · exact same ▸ new r new'
      · exact others set' later
    · intro set' member
      obtain rfl | later := List.mem_cons.1 member
      · exact own set' List.mem_cons_self
      · exact ih others set' later

theorem transformStep_all {P : EntityRef → TargetRecord → Prop} (tools : Toolbox)
    {em : EntityMapping} {s : MigrationState σ} (own : WorkingSet.All P s.working)
    (new : ∀ r : TargetRecord, r.Made em.target → P em.target r) :
    WorkingSet.All P (m.transformStep tools em s).1.working := by
  by_cases none : s.extractedRecords em.source.service em.source.entity = []
  · rw [transformStep_of_nil m tools none]
    exact own
  · rw [transformStep_of_ne_nil m tools none]
    simp only [MigrationState.endStep_working, (Kept.working m).transformRecords fun _ _ => rfl]
    split
    · exact addRecords_all own fun r member => new r (transformRecords_made _ _ _ _ _ r member)
    · exact own

theorem transformAll_all {P : EntityRef → TargetRecord → Prop} (tools : Toolbox)
    {ems : List EntityMapping} {s : MigrationState σ} (own : WorkingSet.All P s.working)
    (new : ∀ em ∈ ems, ∀ r : TargetRecord, r.Made em.target → P em.target r) :
    WorkingSet.All P (m.transformAll tools ems s).1.working := by
  induction ems generalizing s with
  | nil => exact own
  | cons em rest ih =>
    have step := transformStep_all (m := m) tools own (new em List.mem_cons_self)
    simp only [transformAll]
    generalize m.transformStep tools em s = p at step
    obtain ⟨t, _ | e⟩ := p
    · exact ih step fun em member => new em (List.mem_cons_of_mem _ member)
    · exact step

theorem runTransformation_all {P : EntityRef → TargetRecord → Prop} (mapping : Mapping)
    {s : MigrationState σ} (own : WorkingSet.All P s.working)
    (new : ∀ em ∈ mapping.entities, ∀ r : TargetRecord, r.Made em.target → P em.target r) :
    WorkingSet.All P (m.runTransformation mapping s).1.working := by
  have all := transformAll_all (m := m) (m.toolbox (some mapping)) own new
  simp only [runTransformation]
  generalize m.transformAll (m.toolbox (some mapping)) mapping.entities s = p at all
  obtain ⟨t, _ | e⟩ := p
  · simp only [Progressed.andThen]
    rw [(Kept.working m).saveTransformed]
    exact all
  · exact all

/-! ## Validation -/

theorem validated_service (schema : Option EntitySchema) (r : TargetRecord) :
    (m.validated schema r).service = r.service := by
  cases schema <;> rfl

theorem validated_entity (schema : Option EntitySchema) (r : TargetRecord) :
    (m.validated schema r).entity = r.entity := by
  cases schema <;> rfl

/-- A record that validation keeps. -/
theorem loadable_of_isValid {target : EntityRef} {r : TargetRecord} (made : r.Made target)
    (valid : (m.validated (m.registry.entitySchema? target) r).isValid = true) :
    m.Loadable { m.validated (m.registry.entitySchema? target) r with status := .validated } := by
  have acceptable := TargetRecord.isValid_iff.1 valid
  cases found : m.registry.entitySchema? target with
  | none =>
    rw [found] at acceptable valid
    refine ⟨valid, rfl, ?_, fun schema h => ?_⟩
    · refine List.filter_eq_nil_iff.2 fun f member => ?_
      have error := made.errors f member
      rw [acceptable f member] at error
      cases error
    · have place : (⟨r.service, r.entity⟩ : EntityRef) = target := by
        rw [made.service, made.entity]
      have none : m.registry.entitySchema? ⟨r.service, r.entity⟩ = some schema := h
      rw [place, found] at none
      cases none
  | some schema =>
    rw [found] at acceptable valid
    obtain ⟨own, checked⟩ := Acceptable.append_iff.1 acceptable
    refine ⟨valid, rfl, ?_, fun schema' h => ?_⟩
    · refine List.filter_eq_nil_iff.2 fun f member => ?_
      obtain old | new := List.mem_append.1 member
      · have error := made.errors f old
        rw [own f old] at error
        cases error
      · simp [Validation.kind_findings new]
    · have place : (⟨r.service, r.entity⟩ : EntityRef) = target := by
        rw [made.service, made.entity]
      have some : m.registry.entitySchema? ⟨r.service, r.entity⟩ = some schema' := h
      rw [place, found] at some
      cases some
      exact checked

theorem validateOne_all {P : TargetRecord → Prop} {schema : Option EntitySchema} {w : Work σ}
    {r : TargetRecord} (own : ∀ r ∈ w.records, P r)
    (new : (m.validated schema r).isValid = true →
      P { m.validated schema r with status := .validated }) :
    ∀ r' ∈ (m.validateOne schema w r).records, P r' := by
  simp only [validateOne]
  split
  · rename_i valid
    intro r' member
    obtain old | new' := List.mem_append.1 member
    · exact own r' old
    · exact List.mem_singleton.1 new' ▸ new valid
  · exact own

theorem validateRecords_all {P : TargetRecord → Prop} {schema : Option EntitySchema}
    {records : List TargetRecord} (s : MigrationState σ) (step : Step)
    (new : ∀ r ∈ records, (m.validated schema r).isValid = true →
      P { m.validated schema r with status := .validated }) :
    ∀ r ∈ (m.validateRecords schema records s step).1.records, P r := by
  let R (v w : Work σ) : Prop := (∀ r ∈ v.records, P r) → ∀ r ∈ w.records, P r
  have batch : ∀ w : Work σ, ∀ part ∈ batches m.config.batchSize records,
      R w (m.validateBatch schema records.length w part).1 :=
    fun w part member => foldl_keeps (R := R) (fun _ own => own) (fun h h' own => h' (h own)) part
      (fun _ r h own => validateOne_all own (new r (mem_of_mem_batches member h))) w
  exact overBatches_keeps (R := R) (fun _ own => own) (fun h h' own => h' (h own))
    (batches m.config.batchSize records) batch { state := s, step } (fun _ none => nomatch none)

/-- When validation goes through, the records that stay are those found valid. -/
theorem validateAll_all {P Q : EntityRef → TargetRecord → Prop}
    (new : ∀ target r, P target r →
      (m.validated (m.registry.entitySchema? target) r).isValid = true →
      Q target { m.validated (m.registry.entitySchema? target) r with status := .validated })
    {sets sets' : List WorkingSet} {s t : MigrationState σ} (own : WorkingSet.All P sets)
    (through : m.validateAll sets s = (sets', t, none)) : WorkingSet.All Q sets' := by
  induction sets generalizing s sets' t with
  | nil =>
    cases through
    exact fun _ none => nomatch none
  | cons set rest ih =>
    have passed : ∀ r ∈ (m.validateStep set s).1.records, Q (m.validateStep set s).1.target r := by
      rw [validateStep_eq]
      simp only
      split
      · exact validateRecords_all _ _ fun r h => new set.target r (own set List.mem_cons_self r h)
      · exact List.forall_mem_nil _
    have others : WorkingSet.All P rest :=
      fun set member => own set (List.mem_cons_of_mem _ member)
    simp only [validateAll] at through
    generalize m.validateStep set s = p at passed through
    obtain ⟨set', t', _ | e⟩ := p
    · simp only [Prod.mk.injEq] at through
      obtain ⟨rfl, further⟩ := through
      intro set member
      obtain rfl | later := List.mem_cons.1 member
      · exact passed
      · exact ih others (Prod.ext rfl further) set later
    · cases through

/-! ## The phases before loading -/

theorem phase_eq_none {status : RunStatus} {work : MigrationState σ → Progressed σ}
    {s t : MigrationState σ} (h : m.phase status work s = (t, none)) :
    ∃ u, u.working = s.working ∧ work u = (t, none) := by
  obtain ⟨u, entered, worked⟩ := Progressed.andThen_eq_none_iff.1 h
  obtain ⟨run, changed, _⟩ := s.goTo_frame m status
  have working := congrArg MigrationState.working changed
  rw [entered] at working
  exact ⟨u, working, worked⟩

/-- The records that are ready to be loaded are loadable, and they belong to their entity. -/
theorem prepare_all {mapping : Mapping} {s ready : MigrationState σ} {P : EntityRef → Prop}
    (empty : s.working = []) (targets : ∀ em ∈ mapping.entities, P em.target)
    (prepared : m.prepare mapping s = (ready, none)) :
    WorkingSet.All (fun target r =>
      P target ∧ r.service = target.service ∧ r.entity = target.entity ∧ m.Loadable r)
      ready.working := by
  obtain ⟨t, earlier, validating⟩ := Progressed.andThen_eq_none_iff.1 prepared
  obtain ⟨u, extracting, transforming⟩ := Progressed.andThen_eq_none_iff.1 earlier
  obtain ⟨s', begins, extracted⟩ := phase_eq_none extracting
  obtain ⟨u', goesOn, transformed⟩ := phase_eq_none transforming
  obtain ⟨t', goesOn', validated⟩ := phase_eq_none validating
  have still : u.working = s'.working := by
    have kept := (Kept.working m).runExtraction (fun _ _ => rfl) s'
    rwa [extracted] at kept
  have made : WorkingSet.All (fun target r => P target ∧ r.Made target) t.working := by
    have all := runTransformation_all (m := m) mapping (s := u')
      (P := fun target r => P target ∧ r.Made target) ?_ fun em h r made => ⟨targets em h, made⟩
    · rwa [transformed] at all
    · rw [goesOn, still, begins, empty]
      exact fun _ none => nomatch none
  simp only [runValidation, Prod.mk.injEq] at validated
  obtain ⟨rfl, through⟩ := validated
  refine validateAll_all (t := (m.validateAll t'.working t').2.1) ?_ (goesOn' ▸ made)
    (Prod.ext rfl (Prod.ext rfl through))
  intro target r ⟨ours, made⟩ valid
  refine ⟨ours, ?_, ?_, loadable_of_isValid made valid⟩
  · exact (validated_service _ r).trans made.service
  · exact (validated_entity _ r).trans made.entity

/-! ## Loading -/

/-- A survivor with what it takes over from a loadable record of the same entity. -/
theorem Loadable.absorb {winner loser : TargetRecord} (rules : m.rules = [])
    (free : ∀ schema, m.registry.entitySchema? ⟨winner.service, winner.entity⟩ = some schema →
      Validation.FreeMetadata schema)
    (service : loser.service = winner.service) (entity : loser.entity = winner.entity)
    (h : m.Loadable winner) (h' : m.Loadable loser) : m.Loadable (winner.absorb loser) where
  valid := h.valid
  validated := h.validated
  transformed := h.transformed
  accepted schema found := by
    have own := h.accepted schema found
    have theirs := h'.accepted schema (by rw [service, entity]; exact found)
    rw [rules] at own theirs ⊢
    exact Validation.acceptable_findings_absorb (free schema found) own theirs

/-- The records of an entity that are sent are loadable when its working sets are. -/
theorem recordsToLoad_all {P : TargetRecord → Prop} {working : List WorkingSet} {entity : String}
    (closed : ∀ w l, P w → P l → P (w.absorb l))
    (all : ∀ set ∈ working, set.target.entity = entity → ∀ r ∈ set.records, P r) :
    ∀ r ∈ m.recordsToLoad working entity, P r := by
  have own : ∀ r ∈ entityRecords working entity, P r := by
    intro r member
    obtain ⟨set, chosen, inside⟩ := List.mem_flatMap.1 member
    obtain ⟨present, same⟩ := List.mem_filter.1 chosen
    exact all set present (by simpa using same) r inside
  simp only [recordsToLoad]
  split
  · exact own
  · exact TargetRecord.deduplicate_forall closed own

/-- What holds of the records that are ready and survives merging holds of all that are sent. -/
theorem Delivery.records_all {s ready : MigrationState σ} {mapping : Mapping}
    {loader : Loader (Target σ)} {done rest : List Batch}
    (delivery : m.Delivery s mapping ready loader done rest) {P : String → TargetRecord → Prop}
    (closed : ∀ entity w l, P entity w → P entity l → P entity (w.absorb l))
    (all : ∀ set ∈ ready.working, ∀ r ∈ set.records, P set.target.entity r) :
    ∀ b ∈ done, b.upsert = m.config.upsert ∧ ∀ r ∈ b.records, P b.entity r := by
  intro b member
  have planned : b ∈ m.plan ready.working (loadEntities mapping ready.working) :=
    delivery.whole ▸ List.mem_append_left rest member
  obtain ⟨entity, _, own⟩ := List.mem_flatMap.1 planned
  obtain ⟨part, cut, rfl⟩ := List.mem_map.1 own
  refine ⟨rfl, fun r inside => ?_⟩
  refine recordsToLoad_all (closed entity) ?_ r (mem_of_mem_batches cut inside)
  rintro set present rfl
  exact all set present

/-- Every record that is sent is loadable as it is sent. -/
theorem sent_records_loadable (m : Migration σ) (s : MigrationState σ) (service : String)
    (rules : m.rules = [])
    (targets : ∀ mapping, m.resolveMapping s = .ok mapping →
      ∀ em ∈ mapping.entities, em.target.service = service)
    (free : ∀ entity schema, m.registry.entitySchema? ⟨service, entity⟩ = some schema →
      ∀ field ∈ schema.fields, field.1 = TargetRecord.metadataField →
        field.2.info.allowed.getD [] = []) :
    ∃ sent, (m.run s).sent = s.sent ++ sent ∧
      ∀ batch ∈ sent, ∀ r ∈ batch.records, m.Loadable r := by
  obtain ⟨untouched, _⟩ | ⟨mapping, ready, loader, done, rest, delivery⟩ :=
    m.run_untouched_or_delivers s
  · exact ⟨[], untouched.sent.trans (List.append_nil _).symm, fun _ none => nomatch none⟩
  · refine ⟨done, delivery.sends.sent, fun batch member => ?_⟩
    have loadable := prepare_all (m := m) (s := adopt mapping (m.fresh s))
      (P := fun target => target.service = service) rfl (targets mapping delivery.resolved)
      delivery.prepared
    have all := delivery.records_all
      (P := fun entity r => r.service = service ∧ r.entity = entity ∧ m.Loadable r) ?_ ?_
    · exact fun r inside => ((all batch member).2 r inside).2.2
    · rintro entity w l ⟨ws, we, wl⟩ ⟨ls, le, ll⟩
      refine ⟨ws, we, wl.absorb rules ?_ (ls.trans ws.symm) (le.trans we.symm) ll⟩
      intro schema found
      rw [ws, we] at found
      exact free entity schema found
    · intro set present r inside
      obtain ⟨ours, s, e, l⟩ := loadable set present r inside
      exact ⟨s.trans ours, e, l⟩

/-- Contacts with an object of metadata. -/
def contactSchema : EntitySchema where
  name := "contact"
  fields := [("email", .ofType "email" .string), ("meta_data", .ofType "meta_data" .object)]

/-- Users of two shops become contacts, and duplicates among them are merged. -/
def contactMigration : Migration Memory where
  config := { name := "contacts", targetService := "crm", deduplication := [("contact", "email")] }
  registry := { schemas := [("crm", { name := "crm", entities := [("contact", contactSchema)] })] }
  connectors := ({} : Connectors Memory).withLoader "crm" fun _ => .ok (Memory.loader "crm")
  now := ⟨0, 0⟩

/-- The mapping of the users of two shops. -/
def contactMapping : Mapping where
  name := "contacts"
  entities := [
    { name := "buyers", source := ⟨"shop", "user"⟩, target := ⟨"crm", "contact"⟩
      fields := [.copy "mail" "email", .copy "tier" "meta_data.tier"] },
    { name := "sellers", source := ⟨"market", "user"⟩, target := ⟨"crm", "contact"⟩
      fields := [.copy "mail" "email", .copy "area" "meta_data.area"] }]

/-- A user of each of the two shops, with one address. -/
def contactState : MigrationState Memory :=
  contactMigration.addSourceData "market" "user"
    [.obj [("area", .str "north"), ("id", .str "7"), ("mail", .str "Ann@x.org")]]
    (contactMigration.addSourceData "shop" "user"
      [.obj [("id", .str "1"), ("mail", .str "ann@x.org"), ("tier", .str "gold")]]
      { contactMigration.initial [] with mapping := some contactMapping })

/-- The two users are sent as one contact with the metadata of both, which is loadable. -/
theorem contactMigration_sent_records_loadable :
    ((contactMigration.run contactState).sent.map fun b => b.records.map TargetRecord.data) =
      [[[("email", .str "ann@x.org"),
        ("meta_data", .obj [("area", .str "north"), ("tier", .str "gold")])]]] ∧
    ∃ sent, (contactMigration.run contactState).sent = contactState.sent ++ sent ∧
      ∀ batch ∈ sent, ∀ r ∈ batch.records, contactMigration.Loadable r := by
  refine ⟨by decide +kernel, sent_records_loadable contactMigration contactState "crm" rfl ?_ ?_⟩
  · rintro mapping ⟨⟩
    decide
  · intro entity schema found field member metadata
    have crm : contactMigration.registry.schema? "crm" =
        some { name := "crm", entities := [("contact", contactSchema)] } := by rfl
    simp only [Registry.entitySchema?, crm, Option.bind_some, Dict.get?] at found
    split at found <;> cases found
    obtain rfl | rfl : field = ("email", .ofType "email" .string) ∨
        field = ("meta_data", .ofType "meta_data" .object) := by
      simpa [contactSchema] using member
    · rfl
    · rfl

end Migration

end DataMigration
