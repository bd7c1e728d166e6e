import DataMigration.Proofs.Mapping.DependencyOrder
import DataMigration.Proofs.Migration.Accounting
import DataMigration.Proofs.Migration.Ending
import DataMigration.Proofs.Migration.Loadable
import Mathlib.Data.List.Nodup

/-!
# No record is lost between phases

Records are grouped anew from phase to phase: by mapping, by target entity and its service, by
target entity, and in batches. What one phase counts as its outcome for an entity the next one
counts as its input all the same, and in the end the surviving records are sent, in chunks.
-/

namespace DataMigration.Migration

variable {σ : Type} (m : Migration σ)

/-- The states between the phases of a run that goes through. -/
structure Passes (mapping : Mapping) (s s₁ s₂ s₃ s₄ t : MigrationState σ) : Prop where
  extracting : ∃ run, s.run.SameAccount run ∧ m.runExtraction { s with run } = (s₁, none)
  transforming : ∃ run, s₁.run.SameAccount run ∧
    m.runTransformation mapping { s₁ with run } = (s₂, none)
  validating : ∃ run, s₂.run.SameAccount run ∧ m.runValidation { s₂ with run } = (s₃, none)
  loading : ∃ run, s₃.run.SameAccount run ∧ m.runLoading mapping { s₃ with run } = (s₄, none)
  completing : ∃ run, s₄.run.SameAccount run ∧ t = { s₄ with run }

variable {m}

theorem phase_through {status : RunStatus} {work : MigrationState σ → Progressed σ}
    {s t : MigrationState σ} (h : m.phase status work s = (t, none)) :
    ∃ run, s.run.SameAccount run ∧ work { s with run } = (t, none) := by
  obtain ⟨u, entered, worked⟩ := Progressed.andThen_eq_none_iff.1 h
  obtain ⟨run, changed, account, _⟩ := s.goTo_frame m status
  rw [entered] at changed
  cases changed
  exact ⟨run, account, worked⟩

theorem phases_through {mapping : Mapping} {s t : MigrationState σ}
    (h : m.phases mapping s = (t, none)) : ∃ s₁ s₂ s₃ s₄, m.Passes mapping s s₁ s₂ s₃ s₄ t := by
  obtain ⟨s₄, loaded, completed⟩ := Progressed.andThen_eq_none_iff.1 h
  obtain ⟨s₃, prepared, loading⟩ := Progressed.andThen_eq_none_iff.1 loaded
  obtain ⟨s₂, transformed, validating⟩ := Progressed.andThen_eq_none_iff.1 prepared
  obtain ⟨s₁, extracting, transforming⟩ := Progressed.andThen_eq_none_iff.1 transformed
  refine ⟨s₁, s₂, s₃, s₄, phase_through extracting, phase_through transforming,
    phase_through validating, phase_through loading, ?_⟩
  obtain ⟨run, changed, account, _⟩ := s₄.goTo_frame m .completed
  rw [completed] at changed
  exact ⟨run, account, changed⟩

section

variable {mapping : Mapping} {s s₁ s₂ s₃ s₄ t : MigrationState σ}

theorem Passes.working_extracting (passes : m.Passes mapping s s₁ s₂ s₃ s₄ t) :
    s₁.working = s.working := by
  obtain ⟨run, _, extracting⟩ := passes.extracting
  have kept := (Kept.working m).runExtraction (fun _ _ => rfl) { s with run }
  rw [extracting] at kept
  exact kept

theorem Passes.working_loading (passes : m.Passes mapping s s₁ s₂ s₃ s₄ t) :
    s₄.working = s₃.working := by
  obtain ⟨run, _, loading⟩ := passes.loading
  have kept := (Kept.working m).runLoading (fun _ _ _ => rfl) (fun _ _ => rfl) (fun _ _ => rfl)
    mapping { s₃ with run }
  rw [loading] at kept
  exact kept

/-- What was extracted stays where it is once it has been extracted. -/
theorem Passes.extracted_kept (passes : m.Passes mapping s s₁ s₂ s₃ s₄ t) :
    s₄.extracted = s₁.extracted := by
  obtain ⟨run₂, _, transforming⟩ := passes.transforming
  obtain ⟨run₃, _, validating⟩ := passes.validating
  obtain ⟨run₄, _, loading⟩ := passes.loading
  have kept := Kept.extracted m
  have transformed := kept.runTransformation (fun _ _ => rfl) (fun _ _ => rfl) mapping
    { s₁ with run := run₂ }
  have validated := kept.runValidation (fun _ _ => rfl) { s₂ with run := run₃ }
  have loaded := kept.runLoading (fun _ _ _ => rfl) (fun _ _ => rfl) (fun _ _ => rfl) mapping
    { s₃ with run := run₄ }
  rw [transforming] at transformed
  rw [validating] at validated
  rw [loading] at loaded
  exact loaded.trans (validated.trans transformed)

/-- Nothing is sent before the records are loaded. -/
theorem Passes.sent_before (passes : m.Passes mapping s s₁ s₂ s₃ s₄ t) : s₃.sent = s.sent := by
  obtain ⟨run₁, _, extracting⟩ := passes.extracting
  obtain ⟨run₂, _, transforming⟩ := passes.transforming
  obtain ⟨run₃, _, validating⟩ := passes.validating
  have kept := Untouched.kept m
  have extracted := kept.runExtraction (fun _ _ => ⟨rfl, rfl, rfl, rfl⟩) { s with run := run₁ }
  have transformed := kept.runTransformation (fun _ _ => ⟨rfl, rfl, rfl, rfl⟩)
    (fun _ _ => ⟨rfl, rfl, rfl, rfl⟩) mapping { s₁ with run := run₂ }
  have validated := kept.runValidation (fun _ _ => ⟨rfl, rfl, rfl, rfl⟩) { s₂ with run := run₃ }
  rw [extracting] at extracted
  rw [transforming] at transformed
  rw [validating] at validated
  exact validated.sent.trans (transformed.sent.trans extracted.sent)

end

/-- The steps that a run adds when it goes through its phases, and what they count. -/
structure Ledger (mapping : Mapping) (s t : MigrationState σ)
    (extracts transforms validates loads : List Step) : Prop where
  steps : t.run.steps = s.run.steps ++ (extracts ++ (transforms ++ (validates ++ loads)))
  extract : ∀ step ∈ extracts, step.begins "Extract " = true
  transform : ∀ step ∈ transforms, step.begins "Transform " = true
  validate : ∀ step ∈ validates, step.begins "Validate " = true
  load : ∀ step ∈ loads, step.begins "Load " = true
  transformed : amounts Step.processed transforms = sourceSizes t mapping.entities
  handedOver : ∀ entity, tally entity (amounts Step.processed validates) =
    tally entity (amounts Step.processed transforms)
  stayed : amounts Step.succeeded validates = setSizes t.working
  loaded : amounts Step.processed loads = (loadEntities mapping t.working).map fun e =>
    (e, (m.recordsToLoad t.working e).length)
  skipped : amounts Step.skipped loads = (loadEntities mapping t.working).map fun e =>
    (e, (entityRecords t.working e).length - (m.recordsToLoad t.working e).length)

theorem Passes.ledger {mapping : Mapping} {s s₁ s₂ s₃ s₄ t : MigrationState σ}
    (passes : m.Passes mapping s s₁ s₂ s₃ s₄ t) (empty : s.working = [])
    (sequential : ∀ l, m.connectors.targetLoader m.config = .ok l → l.Sequential) :
    ∃ extracts transforms validates loads,
      m.Ledger mapping s t extracts transforms validates loads := by
  obtain ⟨run₁, account₁, extracting⟩ := passes.extracting
  obtain ⟨run₂, account₂, transforming⟩ := passes.transforming
  obtain ⟨run₃, account₃, validating⟩ := passes.validating
  obtain ⟨run₄, account₄, loading⟩ := passes.loading
  obtain ⟨run₅, account₅, rfl⟩ := passes.completing
  obtain ⟨extracts, adds₁⟩ := m.extractAll_adds m.config.sources [] { s with run := run₁ }
  obtain ⟨transforms, adds₂, grows, sources⟩ :=
    m.runTransformation_adds mapping { s₁ with run := run₂ }
  obtain ⟨validates, adds₃, validated⟩ := m.runValidation_adds { s₂ with run := run₃ }
  obtain ⟨loads, adds₄, loaded⟩ := m.runLoading_adds mapping sequential { s₃ with run := run₄ }
  have through : m.extractAll m.config.sources [] { s with run := run₁ } = (s₁, none) := extracting
  rw [through] at adds₁
  rw [transforming] at adds₂ grows sources
  rw [validating] at adds₃ validated
  rw [loading] at adds₄ loaded
  obtain ⟨stayed, processed⟩ := validated rfl
  obtain ⟨sent, skipped⟩ := loaded rfl
  simp only at grows processed stayed sent skipped
  -- the records are where the phase before has put them
  have working₁ := passes.working_extracting
  have working₄ := passes.working_loading
  refine ⟨extracts, transforms, validates, loads, ?_, adds₁.named, adds₂.named, adds₃.named,
    adds₄.named, ?_, fun entity => ?_, ?_, ?_, ?_⟩
  · have steps₁ : s₁.run.steps = s.run.steps ++ extracts :=
      (adds₁.steps_left account₁.steps).steps
    have steps₂ : s₂.run.steps = s₁.run.steps ++ transforms :=
      (adds₂.steps_left account₂.steps).steps
    have steps₃ : s₃.run.steps = s₂.run.steps ++ validates :=
      (adds₃.steps_left account₃.steps).steps
    have steps₄ : s₄.run.steps = s₃.run.steps ++ loads := (adds₄.steps_left account₄.steps).steps
    rw [account₅.steps, steps₄, steps₃, steps₂, steps₁]
    simp only [List.append_assoc]
  · rw [sources rfl]
    simp only [sourceSizes, MigrationState.extractedRecords, passes.extracted_kept]
  · rw [processed, grows entity, working₁, empty]
    exact Nat.zero_add _
  · rw [stayed, working₄]
  · rw [sent, working₄]
  · rw [skipped, working₄]

theorem mem_loadEntities {mapping : Mapping} {working : List WorkingSet} {entity : String}
    (h : entity ∉ loadEntities mapping working) : entityRecords working entity = [] := by
  have absent : ∀ set ∈ working, set.target.entity ≠ entity := by
    rintro set member rfl
    exact h (Mapping.mem_firsts.2 (List.mem_append_right _ (List.mem_map_of_mem member)))
  have none : (working.filter fun set => set.target.entity == entity) = [] :=
    List.filter_eq_nil_iff.2 fun set member own => absent set member (beq_iff_eq.1 own)
  rw [entityRecords, none]
  rfl

theorem recordsToLoad_of_nil {working : List WorkingSet} {entity : String}
    (h : entityRecords working entity = []) : m.recordsToLoad working entity = [] := by
  have most := m.recordsToLoad_length_le working entity
  rw [h] at most
  exact List.eq_nil_of_length_eq_zero (Nat.le_zero.1 most)

/-- The steps of each kind are those of the phase, entity by entity. -/
theorem Ledger.stepsOf {mapping : Mapping} {s t : MigrationState σ}
    {extracts transforms validates loads : List Step}
    (h : m.Ledger mapping s t extracts transforms validates loads) (none : s.run.steps = [])
    (entity : String) :
    t.run.stepsOf "Transform " entity = transforms.filter (fun step => step.entity == entity) ∧
    t.run.stepsOf "Validate " entity = validates.filter (fun step => step.entity == entity) ∧
    t.run.stepsOf "Load " entity = loads.filter (fun step => step.entity == entity) := by
  simp only [Run.stepsOf, h.steps, none, List.nil_append, List.filter_append]
  refine ⟨?_, ?_, ?_⟩
  · rw [filter_begins_of_ne h.extract (by decide) (by decide), filter_begins h.transform,
      filter_begins_of_ne h.validate (by decide) (by decide),
      filter_begins_of_ne h.load (by decide) (by decide)]
    simp
  · rw [filter_begins_of_ne h.extract (by decide) (by decide), filter_begins h.validate,
      filter_begins_of_ne h.transform (by decide) (by decide),
      filter_begins_of_ne h.load (by decide) (by decide)]
    simp
  · rw [filter_begins_of_ne h.extract (by decide) (by decide), filter_begins h.load,
      filter_begins_of_ne h.transform (by decide) (by decide),
      filter_begins_of_ne h.validate (by decide) (by decide)]
    simp

/-! ## What is sent -/

theorem parcels_entity {entity : String} {records : List TargetRecord} :
    ∀ b ∈ m.parcels entity records, b.entity = entity := by
  intro b member
  obtain ⟨part, _, rfl⟩ := List.mem_map.1 member
  rfl

theorem parcels_chunks {entity : String} {records : List TargetRecord}
    (positive : 0 < m.config.batchSize) :
    Chunks m.config.batchSize records ((m.parcels entity records).map Batch.records) := by
  have parts : (m.parcels entity records).map Batch.records =
      batches m.config.batchSize records := by
    simp [parcels, Function.comp_def]
  have chunked := batches_chunks m.config.batchSize records
  rw [Nat.max_eq_left positive] at chunked
  rw [parts]
  exact chunked

/-- The batches of an entity in a plan that has each entity once. -/
theorem plan_filter (working : List WorkingSet) {entities : List String} (once : entities.Nodup)
    (entity : String) :
    ((m.plan working entities).filter fun b => b.entity == entity) =
      if entity ∈ entities then m.parcels entity (m.recordsToLoad working entity) else [] := by
  induction entities with
  | nil => rfl
  | cons e entities ih =>
    obtain ⟨new, once⟩ := List.nodup_cons.1 once
    have planned : m.plan working (e :: entities) =
        m.parcels e (m.recordsToLoad working e) ++ m.plan working entities := rfl
    rw [planned, List.filter_append, ih once]
    by_cases own : e = entity
    · subst own
      have all : ((m.parcels e (m.recordsToLoad working e)).filter fun b => b.entity == e) =
          m.parcels e (m.recordsToLoad working e) :=
        List.filter_eq_self.2 fun b member => beq_iff_eq.2 (parcels_entity b member)
      simp [all, new]
    · have none : ((m.parcels e (m.recordsToLoad working e)).filter fun b => b.entity == entity) =
          [] :=
        List.filter_eq_nil_iff.2 fun b member same =>
          own ((parcels_entity b member).symm.trans (beq_iff_eq.1 same))
      simp [none, Ne.symm own]

/-- A run that goes through its phases sends the whole plan. -/
theorem Passes.sent {mapping : Mapping} {s s₁ s₂ s₃ s₄ t : MigrationState σ}
    (passes : m.Passes mapping s s₁ s₂ s₃ s₄ t) :
    t.sent = s.sent ++ m.plan t.working (loadEntities mapping t.working) := by
  have before := passes.sent_before
  have same := passes.working_loading
  obtain ⟨run₄, _, loading⟩ := passes.loading
  obtain ⟨run₅, _, rfl⟩ := passes.completing
  obtain ⟨e, stopped⟩ | ⟨loader, done, rest, _, whole, sends, all⟩ :=
    m.runLoading_sends mapping { s₃ with run := run₄ }
  · rw [loading] at stopped
    cases stopped
  · rw [loading] at sends all
    rw [all rfl, List.append_nil] at whole
    have sent₄ : s₄.sent = s₃.sent ++ done := sends.sent
    have ended : ({ s₄ with run := run₅ } : MigrationState σ).sent = s₄.sent := rfl
    rw [ended, sent₄, before, whole, same]

/-! ## The account of a run -/

/-- A run that completes has passed through all phases. -/
theorem completed_phases (m : Migration σ) (s : MigrationState σ)
    (completed : (m.run s).run.status = .completed) :
    ∃ mapping t, m.config.check = .ok () ∧ m.resolveMapping s = .ok mapping ∧
      m.phases mapping (adopt mapping (m.fresh s)) = (t, none) ∧
      (m.execute (m.fresh s)).1 = t := by
  have through := execute_of_completed completed
  revert through
  simp only [execute, resolveMapping_fresh]
  cases checked : m.config.check with
  | error e => exact fun none => absurd none (Option.some_ne_none _)
  | ok _ =>
    cases m.resolveMapping s with
    | error e => exact fun none => absurd none (Option.some_ne_none _)
    | ok mapping =>
      intro through
      have worked : (m.preflight mapping (adopt mapping (m.fresh s))).andThen (m.phases mapping) =
          (_, none) := Prod.ext rfl through
      obtain ⟨u, clean, phases⟩ := Progressed.andThen_eq_none_iff.1 worked
      have same : u = adopt mapping (m.fresh s) := by
        simp only [preflight] at clean
        split at clean <;> cases clean
        rfl
      rw [same] at phases
      exact ⟨mapping, _, rfl, rfl, phases, rfl⟩

theorem completed_through (m : Migration σ) (s : MigrationState σ)
    (completed : (m.run s).run.status = .completed) :
    ∃ mapping s₁ s₂ s₃ s₄ t, 0 < m.config.batchSize ∧ m.resolveMapping s = .ok mapping ∧
      m.Passes mapping (adopt mapping (m.fresh s)) s₁ s₂ s₃ s₄ t ∧
      (m.execute (m.fresh s)).1 = t := by
  obtain ⟨mapping, t, checked, resolved, phases, ends⟩ := completed_phases m s completed
  obtain ⟨s₁, s₂, s₃, s₄, passes⟩ := phases_through phases
  exact ⟨mapping, s₁, s₂, s₃, s₄, t, Config.batchSize_pos checked, resolved, passes, ends⟩

theorem Ledger.account {mapping : Mapping} {s t : MigrationState σ}
    {extracts transforms validates loads : List Step}
    (h : m.Ledger mapping s t extracts transforms validates loads) (none : s.run.steps = [])
    (positive : 0 < m.config.batchSize) (entity : String) :
    let counted := fun verb counter => ((t.run.stepsOf verb entity).map counter).sum
    let fed := ((mapping.entities.filter fun em => em.target.entity == entity).map fun em =>
      (t.extractedRecords em.source.service em.source.entity).length).sum
    counted "Transform " Step.processed = fed ∧ counted "Validate " Step.processed = fed ∧
    counted "Validate " Step.succeeded =
      counted "Load " Step.processed + counted "Load " Step.skipped ∧
    counted "Validate " Step.succeeded = (entityRecords t.working entity).length ∧
    (t.run.stepsOf "Load " entity).length ≤ 1 ∧
    Chunks m.config.batchSize (m.recordsToLoad t.working entity)
      (((m.plan t.working (loadEntities mapping t.working)).filter fun b =>
        b.entity == entity).map Batch.records) := by
  obtain ⟨transformed, validated, loaded⟩ := h.stepsOf none entity
  have once : (loadEntities mapping t.working).Nodup := Mapping.nodup_firsts _
  have absent : entity ∉ loadEntities mapping t.working →
      entityRecords t.working entity = [] ∧ m.recordsToLoad t.working entity = [] :=
    fun h => ⟨mem_loadEntities h, recordsToLoad_of_nil (mem_loadEntities h)⟩
  have most := m.recordsToLoad_length_le t.working entity
  have fed : tally entity (sourceSizes t mapping.entities) =
      ((mapping.entities.filter fun em => em.target.entity == entity).map fun em =>
        (t.extractedRecords em.source.service em.source.entity).length).sum := by
    rw [tally, sourceSizes, List.filter_map, List.map_map]
    rfl
  simp only [transformed, validated, loaded, ← tally_amounts]
  refine ⟨?_, ?_, ?_, ?_, ?_, ?_⟩
  · rw [h.transformed, fed]
  · rw [h.handedOver, h.transformed, fed]
  · rw [h.stayed, ← entityRecords_length, h.loaded, h.skipped, tally_map_of_nodup once,
      tally_map_of_nodup once]
    split
    · omega
    · rename_i outside
      simp [(absent outside).1]
  · rw [h.stayed, entityRecords_length]
  · have entities : loads.map Step.entity = loadEntities mapping t.working := by
      have names := congrArg (List.map Prod.fst) h.loaded
      simpa [amounts, Function.comp_def] using names
    rw [length_filter_entity, entities]
    exact List.nodup_iff_count_le_one.1 once entity
  · rw [m.plan_filter t.working once]
    split
    · exact parcels_chunks positive
    · rename_i outside
      rw [(absent outside).2]
      exact .nil _

/-- The counters of every step of every run add up, with one problem for each failed record and one
more if the step failed. When a run completes, the records that its mappings were applied to for an
entity are those that were validated; those that were found valid are those that were loaded or
merged into others; and what was sent of an entity are its surviving records, in chunks. -/
theorem run_accounts_for_records (m : Migration σ) (s : MigrationState σ)
    (sequential : ∀ l, m.connectors.targetLoader m.config = .ok l → l.Sequential) :
    let t := m.run s
    (∀ step ∈ t.run.steps, step.processed = step.succeeded + step.failed ∧
      step.errors.length = step.failed + if step.status = .failed then 1 else 0) ∧
    (t.run.status = .completed →
      ∃ mapping sent, m.resolveMapping s = .ok mapping ∧ t.sent = s.sent ++ sent ∧
        ∀ entity,
          let counted := fun verb counter => ((t.run.stepsOf verb entity).map counter).sum
          let fed := ((mapping.entities.filter fun em => em.target.entity == entity).map fun em =>
            (t.extractedRecords em.source.service em.source.entity).length).sum
          counted "Transform " Step.processed = fed ∧
          counted "Validate " Step.processed = fed ∧
          counted "Validate " Step.succeeded =
            counted "Load " Step.processed + counted "Load " Step.skipped ∧
          counted "Validate " Step.succeeded = (entityRecords t.working entity).length ∧
          (t.run.stepsOf "Load " entity).length ≤ 1 ∧
          Chunks m.config.batchSize (m.recordsToLoad t.working entity)
            ((sent.filter fun b => b.entity == entity).map Batch.records)) := by
  refine ⟨fun step member => ?_, fun completed => ?_⟩
  · obtain ⟨processed, errors⟩ := m.run_accounted sequential s step member
    exact ⟨processed, errors⟩
  · obtain ⟨mapping, s₁, s₂, s₃, s₄, t, positive, resolved, passes, executed⟩ :=
      completed_through m s completed
    obtain ⟨run, events, files, path, ran, steps, _⟩ := m.run_frame s
    rw [executed] at ran steps
    obtain ⟨extracts, transforms, validates, loads, ledger⟩ := passes.ledger rfl sequential
    have sent := passes.sent
    refine ⟨mapping, m.plan t.working (loadEntities mapping t.working), resolved, ?_, ?_⟩
    · rw [ran]
      exact sent
    · intro entity
      have kept : m.Ledger mapping (adopt mapping (m.fresh s)) (m.run s) extracts transforms
          validates loads := by
        rw [ran]
        exact { ledger with steps := steps.trans ledger.steps }
      have same : (m.run s).working = t.working := by rw [ran]
      rw [← same]
      exact kept.account rfl positive entity

/-- Of two users that are found valid one is loaded and the other is merged into it. -/
theorem contactMigration_accounts_for_records :
    let t := contactMigration.run contactState
    let counted := fun verb counter => ((t.run.stepsOf verb "contact").map counter).sum
    (∀ l, contactMigration.connectors.targetLoader contactMigration.config = .ok l →
      l.Sequential) ∧
    t.run.status = .completed ∧ counted "Validate " Step.succeeded = 2 ∧
    counted "Load " Step.processed = 1 ∧
    ∃ mapping sent, contactMigration.resolveMapping contactState = .ok mapping ∧
      t.sent = contactState.sent ++ sent ∧
      counted "Validate " Step.succeeded =
        counted "Load " Step.processed + counted "Load " Step.skipped ∧
      Chunks contactMigration.config.batchSize (contactMigration.recordsToLoad t.working "contact")
        ((sent.filter fun b => b.entity == "contact").map Batch.records) := by
  have sequential : ∀ l, contactMigration.connectors.targetLoader contactMigration.config = .ok l →
      l.Sequential := by
    rintro l ⟨⟩ rs entity upsert target
    rfl
  have completed : (contactMigration.run contactState).run.status = .completed := by
    decide +kernel
  obtain ⟨mapping, sent, resolved, sends, accounts⟩ :=
    (run_accounts_for_records contactMigration contactState sequential).2 completed
  obtain ⟨_, _, loaded, _, _, chunks⟩ := accounts "contact"
  exact ⟨sequential, completed, by decide +kernel, by decide +kernel, mapping, sent, resolved,
    sends, loaded, chunks⟩

end DataMigration.Migration
