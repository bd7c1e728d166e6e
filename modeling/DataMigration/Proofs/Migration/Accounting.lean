import DataMigration.Proofs.Migration.Delivery
import DataMigration.Proofs.Migration.Records
import DataMigration.Proofs.Record.Merge

/-!
# The steps that each phase adds

Each phase adds steps to the run, and the counters of a step say what happened to the records of its
entity. Every step is accounted for, however far its phase came; and unless the phase was stopped,
its steps count all records that the phase was given, entity by entity.
-/

namespace DataMigration

variable {σ : Type}

/-- Steps of one kind, each of them accounted for, were added to a run. -/
structure Adds (verb : String) (added : List Step) (s t : MigrationState σ) : Prop where
  steps : t.run.steps = s.run.steps ++ added
  named : ∀ step ∈ added, step.begins verb = true
  accounted : ∀ step ∈ added, step.Accounted

namespace Adds

variable {verb : String} {added added' : List Step} {s t u : MigrationState σ}

theorem of_steps (verb : String) (h : t.run.steps = s.run.steps) : Adds verb [] s t :=
  ⟨h.trans (List.append_nil _).symm, (fun _ none => nomatch none), (fun _ none => nomatch none)⟩

theorem trans (h : Adds verb added s t) (h' : Adds verb added' t u) :
    Adds verb (added ++ added') s u where
  steps := by rw [h'.steps, h.steps, List.append_assoc]
  named step member := (List.mem_append.1 member).elim (h.named step) (h'.named step)
  accounted step member := (List.mem_append.1 member).elim (h.accounted step) (h'.accounted step)

theorem steps_left (h : Adds verb added t u) (same : t.run.steps = s.run.steps) :
    Adds verb added s u := (of_steps verb same).trans h

theorem steps_right (h : Adds verb added s t) (same : u.run.steps = t.run.steps) :
    Adds verb added s u := by
  have joined := h.trans (of_steps verb same)
  rwa [List.append_nil] at joined

/-- A balanced step ends and is added. -/
theorem finishStep (m : Migration σ) (step : Step) (outcome : Option MigrationError)
    (same : t.run.steps = s.run.steps) (named : step.begins verb = true)
    (balanced : step.Balanced) :
    Adds verb [step.closed outcome m.now] s (t.finishStep m step outcome) := by
  refine ⟨by rw [t.finishStep_steps m, same], fun other member => ?_, fun other member => ?_⟩
  · rw [List.mem_singleton.1 member]
    exact named
  · rw [List.mem_singleton.1 member]
    exact balanced.closed outcome m.now

/-- A balanced step is added when its work has ended, unless that came to a standstill. -/
theorem endStep (m : Migration σ) (step : Step) (stop : Option (Stop MigrationError))
    (same : t.run.steps = s.run.steps) (named : step.begins verb = true)
    (balanced : step.Balanced) :
    Adds verb (step.ended m.now stop) s (t.endStep m step stop) := by
  refine ⟨by rw [t.endStep_steps m, same], fun other member => ?_, fun other member => ?_⟩
  · obtain ⟨outcome, rfl⟩ := Step.exists_closed_of_mem_ended member
    exact named
  · obtain ⟨outcome, rfl⟩ := Step.exists_closed_of_mem_ended member
    exact balanced.closed outcome m.now

/-- The step on which records were counted is added. -/
theorem of_handles {α : Type} {problem? : α → Option StepError} {become : α → List TargetRecord}
    {xs : List α} {v w : Migration.Work σ} (m : Migration σ) (stop : Option (Stop MigrationError))
    (handled : Migration.Work.Handles problem? become xs v w)
    (same : t.run.steps = s.run.steps) (named : v.step.begins verb = true)
    (balanced : v.step.Balanced) :
    Adds verb (w.step.ended m.now stop) s (t.endStep m w.step stop) := by
  refine endStep m _ stop same ?_ ?_
  · rw [handled.step, Step.begins, Step.countAll_name]
    exact named
  · rw [handled.step]
    exact balanced.countAll _

end Adds

/-- All steps of a run are accounted for. -/
def Run.Accounted (r : Run) : Prop := ∀ step ∈ r.steps, step.Accounted

theorem Run.Accounted.of_steps {r r' : Run} (same : r'.steps = r.steps) (h : r.Accounted) :
    r'.Accounted := fun step member => h step (same ▸ member)

theorem Adds.keeps {verb : String} {added : List Step} {s t : MigrationState σ}
    (h : Adds verb added s t) (own : s.run.Accounted) : t.run.Accounted := by
  intro step member
  rw [h.steps] at member
  exact (List.mem_append.1 member).elim (own step) (h.accounted step)

/-- Steps are added to a run by their ends only. -/
theorem KeptInside.steps (m : Migration σ) :
    KeptInside m (fun s t : MigrationState σ => t.run.steps = s.run.steps) where
  refl _ := rfl
  trans h h' := h'.trans h
  emit _ _ := rfl
  note _ _ _ := rfl
  checkpoint s := by
    obtain ⟨run, control, changed, account, _⟩ := s.checkpoint_frame m
    rw [changed]
    exact account.steps
  files _ _ := rfl

/-- Extracted records are added in the extraction phase only. -/
theorem Kept.extracted (m : Migration σ) :
    Kept m (fun s t : MigrationState σ => t.extracted = s.extracted) :=
  .unmoved m MigrationState.extracted fun _ _ _ _ _ _ _ => rfl

namespace Migration

variable (m : Migration σ)

/-! ## Extraction -/

theorem absorb_step (source : Source) (x : Extraction) (s : MigrationState σ) (step : Step) :
    ∃ warnings, (m.absorb source x s step).2 = { countExtraction x step with warnings } :=
  m.saveExtracted_step source x s (countExtraction x step)

theorem extractStep_adds (source : Source) (x : Extracted) (s : MigrationState σ) :
    ∃ added, Adds "Extract " added s (m.extractStep source x s).1 := by
  have k := KeptInside.steps m
  let name := "Extract " ++ source.entity ++ " from " ++ source.service
  let opened := (s.newStep m name source.entity .extracting).2
  have named : opened.begins "Extract " = true :=
    Step.begins_of_name (source.entity ++ " from " ++ source.service)
      (by simp only [opened, MigrationState.newStep, Step.start, name, String.append_assoc])
  cases x with
  | ok x =>
    obtain ⟨warnings, counted⟩ := m.absorb_step source x
      (s.newStep m name source.entity .extracting).1 opened
    have same := k.absorb (fun _ _ => rfl) source x (s.newStep m name source.entity .extracting).1
      opened
    have added : Adds "Extract " _ s _ :=
      Adds.finishStep m { countExtraction x opened with warnings } none same named ⟨rfl, rfl⟩
    rw [← counted] at added
    exact ⟨_, added.steps_right (k.checkpoint _)⟩
  | error e =>
    have added : Adds "Extract " _ s _ :=
      Adds.finishStep (t := (s.newStep m name source.entity .extracting).1) m opened
        (some (.extraction e)) rfl named ⟨rfl, rfl⟩
    simp only [extractStep]
    split
    · exact ⟨_, added.steps_right (k.checkpoint _)⟩
    · exact ⟨_, added⟩

theorem extractAll_adds (sources : List Source) (ahead : List Extracted) (s : MigrationState σ) :
    ∃ added, Adds "Extract " added s (m.extractAll sources ahead s).1 := by
  have k := KeptInside.steps m
  induction sources generalizing ahead s with
  | nil => exact ⟨[], .of_steps _ rfl⟩
  | cons source rest ih =>
    have next : ∀ x ahead t, ∃ added, Adds "Extract " added t
        ((m.extractStep source x t).andThen (m.extractAll rest ahead)).1 := by
      intro x ahead t
      obtain ⟨added, first⟩ := m.extractStep_adds source x t
      generalize m.extractStep source x t = p at first
      obtain ⟨u, _ | e⟩ := p
      · obtain ⟨added', others⟩ := ih ahead u
        exact ⟨added ++ added', first.trans others⟩
      · exact ⟨added, first⟩
    cases ahead with
    | nil =>
      obtain ⟨added, adds⟩ := next (m.readAhead s source rest).2.1 (m.readAhead s source rest).2.2
        (m.readAhead s source rest).1
      exact ⟨added, adds.steps_left (k.readAhead s source rest)⟩
    | cons x ahead => exact next x ahead s

/-! ## Transformation -/

/-- The numbers of records in working sets, by their entities. -/
def setSizes (sets : List WorkingSet) : List (String × Nat) :=
  sets.map fun set => (set.target.entity, set.records.length)

theorem entityRecords_length (sets : List WorkingSet) (entity : String) :
    (entityRecords sets entity).length = tally entity (setSizes sets) := by
  rw [entityRecords, List.length_flatMap, tally, setSizes, List.filter_map, List.map_map]
  rfl

theorem tally_addRecords (entity : String) (target : EntityRef) (records : List TargetRecord)
    (sets : List WorkingSet) :
    tally entity (setSizes (addRecords target records sets)) =
      tally entity (setSizes sets) + tally entity [(target.entity, records.length)] := by
  induction sets with
  | nil => simp [addRecords, setSizes]
  | cons set sets ih =>
    simp only [setSizes, List.map_cons, addRecords] at ih ⊢
    split
    · rename_i same
      simp only [List.map_cons, tally_cons, List.length_append, same, tally_nil]
      split <;> omega
    · simp only [List.map_cons, tally_cons, ih]
      omega

/-- The numbers of records that entity mappings are applied to, by their target entities. -/
def sourceSizes (s : MigrationState σ) (ems : List EntityMapping) : List (String × Nat) :=
  ems.map fun em =>
    (em.target.entity, (s.extractedRecords em.source.service em.source.entity).length)

/-- The step of an entity mapping counts the records that it adds to the working set, and unless it
is stopped these are all records of its source. -/
theorem transformStep_adds (tools : Toolbox) (em : EntityMapping) (s : MigrationState σ) :
    ∃ added, Adds "Transform " added s (m.transformStep tools em s).1 ∧
      (∀ entity, tally entity (setSizes (m.transformStep tools em s).1.working) =
        tally entity (setSizes s.working) + tally entity (amounts Step.processed added)) ∧
      ((m.transformStep tools em s).2 = none →
        amounts Step.processed added = sourceSizes s [em]) := by
  have k := KeptInside.steps m
  let name := "Transform " ++ em.source.entity ++ " to " ++ em.target.entity
  let p := s.newStep m name em.target.entity .transforming
  have named : p.2.begins "Transform " = true :=
    Step.begins_of_name (em.source.entity ++ (" to " ++ em.target.entity))
      (by simp only [p, MigrationState.newStep, Step.start, name, String.append_assoc])
  let sources := s.extractedRecords em.source.service em.source.entity
  by_cases empty : sources = []
  · rw [transformStep_of_nil m tools empty]
    refine ⟨_, Adds.finishStep (s := s) m _ _ rfl named ⟨rfl, rfl⟩, ?_, fun _ => ?_⟩
    · intro entity
      simp [amounts, tally_cons, Step.closed, Step.finish, MigrationState.newStep, Step.start,
        MigrationState.finishStep, MigrationState.emit]
    · have none : s.extractedRecords em.source.service em.source.entity = [] := empty
      simp [amounts, sourceSizes, none, Step.closed, Step.finish, MigrationState.newStep,
        Step.start]
  · rw [transformStep_of_ne_nil m tools empty]
    obtain ⟨done, rest, whole, handled, all⟩ :=
      m.transformRecords_handles em tools sources p.1 p.2
    have working := (Kept.working m).transformRecords (fun _ _ => rfl) em tools sources p.1 p.2
    have steps := k.transformRecords (fun _ _ => rfl) em tools sources p.1 p.2
    simp only at working steps ⊢
    generalize m.transformRecords em tools sources p.1 p.2 = q at handled all working steps
    have made : q.1.records.length = done.length := by
      rw [handled.records, List.nil_append, m.length_flatMap_transformed]
    have counted : q.1.step.processed = done.length := by
      rw [handled.step, Step.countAll_processed, List.length_map]
      exact Nat.zero_add _
    have entity : q.1.step.entity = em.target.entity := by
      rw [handled.step, Step.countAll_entity]
      rfl
    have amount : amounts Step.processed (q.1.step.ended m.now q.2) =
        if Stop.isOver q.2 then [(em.target.entity, done.length)] else [] := by
      rw [amounts_ended (fun _ => rfl), counted, entity]
    refine ⟨_, Adds.of_handles (s := s) m q.2 handled steps named ⟨rfl, rfl⟩, ?_, ?_⟩
    · intro other
      have added := tally_addRecords other em.target q.1.records q.1.state.working
      rw [made, working] at added
      rw [MigrationState.endStep_working, amount, working]
      split
      · exact added
      · rfl
    · intro none
      rw [all none, List.append_nil] at whole
      rw [amount, none, whole]
      rfl

theorem transformAll_adds (tools : Toolbox) (ems : List EntityMapping) (s : MigrationState σ) :
    ∃ added, Adds "Transform " added s (m.transformAll tools ems s).1 ∧
      (∀ entity, tally entity (setSizes (m.transformAll tools ems s).1.working) =
        tally entity (setSizes s.working) + tally entity (amounts Step.processed added)) ∧
      ((m.transformAll tools ems s).2 = none →
        amounts Step.processed added = sourceSizes s ems) := by
  induction ems generalizing s with
  | nil => exact ⟨[], .of_steps _ rfl, fun _ => rfl, fun _ => rfl⟩
  | cons em rest ih =>
    obtain ⟨added₁, first, grows, all⟩ := m.transformStep_adds tools em s
    have extracted := (Kept.extracted m).transformStep (fun _ _ => rfl) (fun _ _ => rfl) tools em s
    simp only [transformAll]
    generalize m.transformStep tools em s = p at first grows all extracted
    obtain ⟨t, _ | e⟩ := p
    · obtain ⟨added, others, grows', all'⟩ := ih t
      have same : sourceSizes t rest = sourceSizes s rest := by
        have extracted : t.extracted = s.extracted := extracted
        simp only [sourceSizes, MigrationState.extractedRecords, extracted]
      refine ⟨added₁ ++ added, first.trans others, fun entity => ?_, fun none => ?_⟩
      · rw [Progressed.andThen, grows' entity, grows entity, amounts_append, tally_append,
          Nat.add_assoc]
      · have split : sourceSizes s (em :: rest) = sourceSizes s [em] ++ sourceSizes s rest := rfl
        rw [split, ← all rfl, ← same, ← all' none, amounts_append]
    · exact ⟨added₁, first, grows, fun none => absurd none (Option.some_ne_none _)⟩

/-- The transformation counts the records that it adds to the working set, and unless it is stopped
these are all records of the sources. -/
theorem runTransformation_adds (mapping : Mapping) (s : MigrationState σ) :
    ∃ added, Adds "Transform " added s (m.runTransformation mapping s).1 ∧
      (∀ entity, tally entity (setSizes (m.runTransformation mapping s).1.working) =
        tally entity (setSizes s.working) + tally entity (amounts Step.processed added)) ∧
      ((m.runTransformation mapping s).2 = none →
        amounts Step.processed added = sourceSizes s mapping.entities) := by
  obtain ⟨added, adds, grows, all⟩ :=
    m.transformAll_adds (m.toolbox (some mapping)) mapping.entities s
  simp only [runTransformation]
  generalize m.transformAll (m.toolbox (some mapping)) mapping.entities s = p at adds grows all
  obtain ⟨t, _ | e⟩ := p
  · refine ⟨added, adds.steps_right ((KeptInside.steps m).saveTransformed t), fun entity => ?_, all⟩
    have working := (Kept.working m).saveTransformed t
    rw [← grows entity]
    exact congrArg (fun sets => tally entity (setSizes sets)) working
  · exact ⟨added, adds, grows, all⟩

/-! ## Validation -/

/-- The step of a working set that is not stopped counts the records that stay in it as succeeded,
and all that were in it as processed. -/
theorem validateStep_adds (set : WorkingSet) (s : MigrationState σ) :
    ∃ added, Adds "Validate " added s (m.validateStep set s).2.1 ∧
      ((m.validateStep set s).2.2 = none →
        amounts Step.succeeded added = setSizes [(m.validateStep set s).1] ∧
        amounts Step.processed added = setSizes [set]) := by
  let schema := m.registry.entitySchema? set.target
  let p := s.newStep m ("Validate " ++ set.target.entity) set.target.entity .validating
  let opened := m.validationStep set s
  have begun : opened.name = "Validate " ++ set.target.entity ∧ opened.entity = set.target.entity ∧
      opened.processed = 0 ∧ opened.succeeded = 0 ∧ opened.Balanced := by
    simp only [opened, validationStep]
    split <;> exact ⟨rfl, rfl, rfl, rfl, rfl, rfl⟩
  obtain ⟨name, entity, processed, succeeded, balanced⟩ := begun
  obtain ⟨done, rest, whole, handled, all⟩ :=
    m.validateRecords_handles schema set.records p.1 opened
  have steps := (KeptInside.steps m).validateRecords schema set.records p.1 opened
  rw [validateStep_eq]
  simp only at steps ⊢
  generalize m.validateRecords schema set.records p.1 opened = q at handled all steps
  have kept : q.1.records.length =
      (done.map (m.validationProblem? schema)).countP Option.isNone := by
    rw [handled.records, List.nil_append, m.length_flatMap_accepted]
  have own : q.1.step.entity = set.target.entity := by
    rw [handled.step, Step.countAll_entity, entity]
  refine ⟨_, Adds.of_handles (s := s) m q.2 handled steps
    (Step.begins_of_name set.target.entity name) balanced, fun none => ?_⟩
  rw [amounts_ended (fun _ => rfl), amounts_ended (fun _ => rfl), own, none]
  refine ⟨?_, ?_⟩
  · have counted : q.1.step.succeeded = q.1.records.length := by
      rw [handled.step, Step.countAll_succeeded, succeeded, kept, Nat.zero_add]
    rw [counted]
    rfl
  · have counted : q.1.step.processed = set.records.length := by
      rw [all none, List.append_nil] at whole
      rw [handled.step, Step.countAll_processed, processed, List.length_map, whole, Nat.zero_add]
    rw [counted]
    rfl

theorem validateAll_adds (sets : List WorkingSet) (s : MigrationState σ) :
    ∃ added, Adds "Validate " added s (m.validateAll sets s).2.1 ∧
      ((m.validateAll sets s).2.2 = none →
        amounts Step.succeeded added = setSizes (m.validateAll sets s).1 ∧
        amounts Step.processed added = setSizes sets) := by
  induction sets generalizing s with
  | nil => exact ⟨[], .of_steps _ rfl, fun _ => ⟨rfl, rfl⟩⟩
  | cons set rest ih =>
    obtain ⟨added₁, first, all⟩ := m.validateStep_adds set s
    simp only [validateAll]
    generalize m.validateStep set s = p at first all
    obtain ⟨set', t, _ | e⟩ := p
    · obtain ⟨added, others, all'⟩ := ih t
      refine ⟨added₁ ++ added, first.trans others, fun none => ?_⟩
      obtain ⟨stay, processed⟩ := all rfl
      obtain ⟨stay', processed'⟩ := all' none
      rw [amounts_append, amounts_append, stay, stay', processed, processed']
      exact ⟨rfl, rfl⟩
    · exact ⟨added₁, first, fun none => absurd none (Option.some_ne_none _)⟩

/-- When validation goes through, its steps count what was in the working sets as processed, and
what is in them afterwards as succeeded. -/
theorem runValidation_adds (s : MigrationState σ) :
    ∃ added, Adds "Validate " added s (m.runValidation s).1 ∧
      ((m.runValidation s).2 = none →
        amounts Step.succeeded added = setSizes (m.runValidation s).1.working ∧
        amounts Step.processed added = setSizes s.working) := by
  obtain ⟨added, adds, all⟩ := m.validateAll_adds s.working s
  exact ⟨added, adds.steps_right rfl, all⟩

/-! ## Loading -/

theorem recordsToLoad_length_le (working : List WorkingSet) (entity : String) :
    (m.recordsToLoad working entity).length ≤ (entityRecords working entity).length := by
  simp only [recordsToLoad]
  split
  · exact Nat.le_refl _
  · exact TargetRecord.deduplicate_length_le _ _ _

/-- The step of an entity counts the records of the entity as skipped or, unless it is stopped, as
processed. -/
theorem loadStep_adds {loader : Loader (Target σ)} (sequential : loader.Sequential)
    (entity : String) (s : MigrationState σ) :
    ∃ added, Adds "Load " added s (m.loadStep loader entity s).1 ∧
      ((m.loadStep loader entity s).2 = none →
        amounts Step.processed added = [(entity, (m.recordsToLoad s.working entity).length)] ∧
        amounts Step.skipped added = [(entity, (entityRecords s.working entity).length -
          (m.recordsToLoad s.working entity).length)]) := by
  let records := m.recordsToLoad s.working entity
  let begun := m.beginLoad entity s
  obtain ⟨done, rest, whole, loaded, all⟩ :=
    m.loadRecords_loads sequential entity records begun.1 begun.2
  have steps := (KeptInside.steps m).loadRecords (fun _ _ _ => rfl) loader entity records begun.1
    begun.2
  rw [loadStep_eq]
  simp only at steps ⊢
  generalize m.loadRecords loader entity records begun.1 begun.2 = q at loaded all steps
  have result := loader.loadEach_balanced done entity m.config.upsert begun.1.target
  have named : q.1.step.begins "Load " = true := by
    rw [loaded.step]
    exact Step.begins_of_name entity rfl
  refine ⟨_, Adds.endStep (s := s) m q.1.step q.2 steps named ?_, fun none => ?_⟩
  · rw [loaded.step]
    exact countLoad_balanced result ⟨rfl, rfl⟩
  · rw [all none, List.append_nil] at whole
    subst whole
    have attempted := loader.loadEach_attempted records entity m.config.upsert begun.1.target
    have nothing := result.skipped
    have opened : begun.2.processed = 0 := rfl
    rw [amounts_ended (fun _ => rfl), amounts_ended (fun _ => rfl), none]
    simp only [loaded.step, countLoad, attempted, nothing, opened, Nat.zero_add]
    exact ⟨rfl, rfl⟩

/-- When loading goes through, there is one step for each entity, which counts its records as
processed or skipped. -/
theorem loadAll_adds {loader : Loader (Target σ)} (sequential : loader.Sequential)
    (entities : List String) (s : MigrationState σ) :
    ∃ added, Adds "Load " added s (m.loadAll loader entities s).1 ∧
      ((m.loadAll loader entities s).2 = none →
        amounts Step.processed added =
          (entities.map fun e => (e, (m.recordsToLoad s.working e).length)) ∧
        amounts Step.skipped added =
          entities.map fun e => (e, (entityRecords s.working e).length -
            (m.recordsToLoad s.working e).length)) := by
  induction entities generalizing s with
  | nil => exact ⟨[], .of_steps _ rfl, fun _ => ⟨rfl, rfl⟩⟩
  | cons entity rest ih =>
    obtain ⟨added₁, first, all⟩ := m.loadStep_adds sequential entity s
    have working := (Kept.working m).loadStep (fun _ _ _ => rfl) (fun _ _ => rfl) loader entity s
    simp only [loadAll]
    generalize m.loadStep loader entity s = p at first all working
    obtain ⟨t, _ | e⟩ := p
    · obtain ⟨added, others, all'⟩ := ih t
      refine ⟨added₁ ++ added, first.trans others, fun none => ?_⟩
      obtain ⟨processed, skipped⟩ := all rfl
      obtain ⟨processed', skipped'⟩ := all' none
      have same : t.working = s.working := working
      rw [amounts_append, amounts_append, processed, skipped, processed', skipped', same]
      exact ⟨rfl, rfl⟩
    · exact ⟨added₁, first, fun none => absurd none (Option.some_ne_none _)⟩

theorem runLoading_adds (mapping : Mapping)
    (sequential : ∀ l, m.connectors.targetLoader m.config = .ok l → l.Sequential)
    (s : MigrationState σ) :
    ∃ added, Adds "Load " added s (m.runLoading mapping s).1 ∧
      ((m.runLoading mapping s).2 = none →
        amounts Step.processed added =
          ((loadEntities mapping s.working).map fun e =>
            (e, (m.recordsToLoad s.working e).length)) ∧
        amounts Step.skipped added =
          (loadEntities mapping s.working).map fun e =>
            (e, (entityRecords s.working e).length - (m.recordsToLoad s.working e).length)) := by
  simp only [runLoading]
  cases found : m.connectors.loader m.config with
  | error e => exact ⟨[], .of_steps _ rfl, fun none => absurd none (Option.some_ne_none _)⟩
  | ok loader =>
    by_cases connected : loader.connected = true
    · obtain ⟨added, adds, all⟩ := m.loadAll_adds (Connectors.loader_sequential sequential found)
        (loadEntities mapping s.working) (withLoader loader s)
      simp only [connected, if_true]
      exact ⟨added, adds.steps_left rfl, all⟩
    · simp only [connected]
      exact ⟨[], .of_steps _ rfl, fun none => absurd none (Option.some_ne_none _)⟩

/-! ## The whole run -/

theorem accounted_kept :
    KeptInside m (fun s t : MigrationState σ => s.run.Accounted → t.run.Accounted) where
  refl _ := id
  trans h h' own := h' (h own)
  emit _ _ := id
  note _ _ _ := id
  checkpoint s := Run.Accounted.of_steps ((KeptInside.steps m).checkpoint s)
  files _ _ := id

theorem goTo_accounted (s : MigrationState σ) (next : RunStatus) (own : s.run.Accounted) :
    (s.goTo m next).1.run.Accounted := by
  obtain ⟨run, changed, account, _⟩ := s.goTo_frame m next
  rw [changed]
  exact own.of_steps account.steps

theorem phase_accounted (status : RunStatus) {verb : String}
    {work : MigrationState σ → Progressed σ} (adds : ∀ s, ∃ added, Adds verb added s (work s).1)
    (s : MigrationState σ) (own : s.run.Accounted) : (m.phase status work s).1.run.Accounted :=
  (m.accounted_kept).andThen (m.goTo_accounted s status)
    (fun t own => (adds t).elim fun _ added => added.keeps own) own

variable (sequential : ∀ l, m.connectors.targetLoader m.config = .ok l → l.Sequential)
include sequential

theorem phases_accounted (mapping : Mapping) (s : MigrationState σ) (own : s.run.Accounted) :
    (m.phases mapping s).1.run.Accounted := by
  have k := m.accounted_kept
  have extracted := m.phase_accounted .extracting
    (fun s => m.extractAll_adds m.config.sources [] s) s
  have transformed := k.andThen extracted (m.phase_accounted .transforming fun s =>
    (m.runTransformation_adds mapping s).imp fun _ adds => adds.1)
  have validated := k.andThen transformed (m.phase_accounted .validating fun s =>
    (m.runValidation_adds s).imp fun _ adds => adds.1)
  have loaded := k.andThen validated (m.phase_accounted .loading fun s =>
    (m.runLoading_adds mapping sequential s).imp fun _ adds => adds.1)
  exact k.andThen loaded (fun s => m.goTo_accounted s .completed) own

/-- Every step of every run is accounted for. -/
theorem run_accounted (s : MigrationState σ) : (m.run s).run.Accounted := by
  obtain ⟨run, events, files, path, ran, steps, _⟩ := m.run_frame s
  rw [ran]
  refine Run.Accounted.of_steps steps ?_
  exact m.accounted_kept.execute (fun _ _ => id) (m.phases_accounted sequential) (m.fresh s)
    fun _ none => nomatch none

end Migration

end DataMigration
