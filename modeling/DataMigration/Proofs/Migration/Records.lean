import DataMigration.Proofs.Load.Sequential
import DataMigration.Proofs.Migration.Moves
import DataMigration.Proofs.Run.Counting

/-!
# What becomes of the records of a step

Each phase does the same with every record: it counts it on the step of the phase, with the problem
it had, and keeps what the record has become. Where the batches are cut does not matter to that; a
phase that is stopped has done it to the records of the first batches.
-/

namespace DataMigration

variable {σ : Type}

/-- One source record always becomes a record. -/
theorem EntityMapping.apply_singleton (em : EntityMapping) (tools : Toolbox)
    (now : Calendar.Instant) (target : EntityRef) (source : SourceRecord) :
    ∃ r, em.apply tools now target [source] = .ok r := ⟨_, rfl⟩

namespace Migration

variable (m : Migration σ)

/-- What a source record becomes. -/
def transformed (em : EntityMapping) (tools : Toolbox) (source : SourceRecord) :
    List TargetRecord :=
  (em.apply tools m.now em.target [source]).toOption.toList

/-- The problem that transforming a source record has. -/
def transformProblem? (em : EntityMapping) (tools : Toolbox) (source : SourceRecord) :
    Option StepError :=
  match em.apply tools m.now em.target [source] with
  | .ok r =>
    match transformFindings r with
    | [] => none
    | findings => some (.ofRecord r.id "Record failed to transform" findings)
  | .error e => some (.ofRecord source.id e.message [])

/-- What stays of a record when it is validated. -/
def accepted (schema : Option EntitySchema) (r : TargetRecord) : List TargetRecord :=
  let r := m.validated schema r
  if r.isValid then [{ r with status := .validated }] else []

/-- The problem that validating a record has. -/
def validationProblem? (schema : Option EntitySchema) (r : TargetRecord) : Option StepError :=
  let r := m.validated schema r
  if r.isValid then none else some (.ofRecord r.id "Record failed validation" r.findings)

theorem transformed_length (em : EntityMapping) (tools : Toolbox) (source : SourceRecord) :
    (m.transformed em tools source).length = 1 := by
  obtain ⟨r, applied⟩ := em.apply_singleton tools m.now em.target source
  simp [transformed, applied, Except.toOption]

theorem length_flatMap_transformed (em : EntityMapping) (tools : Toolbox)
    (sources : List SourceRecord) : (sources.flatMap (m.transformed em tools)).length =
      sources.length := by
  simp [List.length_flatMap, m.transformed_length em tools]

/-- A record is accepted or has a problem. -/
theorem accepted_length (schema : Option EntitySchema) (r : TargetRecord) :
    (m.accepted schema r).length = if (m.validationProblem? schema r).isNone then 1 else 0 := by
  simp only [accepted, validationProblem?]
  split <;> rfl

theorem length_flatMap_accepted (schema : Option EntitySchema) (records : List TargetRecord) :
    (records.flatMap (m.accepted schema)).length =
      (records.map (m.validationProblem? schema)).countP Option.isNone := by
  induction records with
  | nil => rfl
  | cons r records ih =>
    rw [List.flatMap_cons, List.length_append, ih, m.accepted_length schema, List.map_cons,
      List.countP_cons, Nat.add_comm]

/-! ## Transformation and validation -/

/-- Records were counted with their problems, and what they became was kept. -/
structure Work.Handles {α : Type} (problem? : α → Option StepError) (become : α → List TargetRecord)
    (xs : List α) (v w : Work σ) : Prop where
  step : w.step = v.step.countAll (xs.map problem?)
  records : w.records = v.records ++ xs.flatMap become

namespace Work.Handles

variable {α : Type} {problem? : α → Option StepError} {become : α → List TargetRecord}
  {xs ys : List α} {u v w : Work σ}

theorem nil (w : Work σ) : Handles problem? become [] w w := ⟨rfl, (List.append_nil _).symm⟩

theorem append (h : Handles problem? become xs u v) (h' : Handles problem? become ys v w) :
    Handles problem? become (xs ++ ys) u w where
  step := by rw [h'.step, h.step, List.map_append, Step.countAll_append]
  records := by rw [h'.records, h.records, List.flatMap_append, List.append_assoc]

theorem foldl {f : Work σ → α → Work σ} (one : ∀ w x, Handles problem? become [x] w (f w x))
    (xs : List α) (w : Work σ) : Handles problem? become xs w (xs.foldl f w) := by
  induction xs generalizing w with
  | nil => exact nil w
  | cons x xs ih => exact (one w x).append (ih (f w x))

theorem report (h : Handles problem? become xs v w) (phase : RunStatus) (total : Nat)
    (verb : String) (f : MigrationState σ → Progressed σ) :
    Handles problem? become xs v (w.report phase total verb f).1 := ⟨h.step, h.records⟩

/-- Work on batches that handles each batch handles the first of them. -/
theorem overBatches {work : Work σ → List α → Work σ × Option (Stop MigrationError)}
    (each : ∀ w batch, Handles problem? become batch w (work w batch).1) (size : Nat) (xs : List α)
    (w : Work σ) :
    ∃ done rest, done ++ rest = xs ∧
      Handles problem? become done w (overBatches work (batches size xs) w).1 ∧
      ((overBatches work (batches size xs) w).2 = none → rest = []) := by
  obtain ⟨done, rest, whole, handled, all⟩ :=
    overBatches_prefix (R := fun done => Handles problem? become done.flatten) nil
      (fun {x xs b c d} first next => by
        rw [List.flatten_singleton] at first
        exact first.append next)
      (fun w batch => by rw [List.flatten_singleton]; exact each w batch) (batches size xs) w
  refine ⟨done.flatten, rest.flatten, ?_, handled, fun none => by rw [all none]; rfl⟩
  rw [← List.flatten_append, whole, batches_flatten]

end Work.Handles

theorem transformOne_handles (em : EntityMapping) (tools : Toolbox) (w : Work σ)
    (source : SourceRecord) :
    Work.Handles (m.transformProblem? em tools) (m.transformed em tools) [source] w
      (m.transformOne em tools w source) := by
  obtain ⟨r, applied⟩ := em.apply_singleton tools m.now em.target source
  simp only [transformOne, applied]
  cases findings : transformFindings r <;>
    exact ⟨by simp [transformProblem?, applied, findings]; rfl,
      by simp [transformed, applied, Except.toOption]; rfl⟩

theorem validateOne_handles (schema : Option EntitySchema) (w : Work σ) (r : TargetRecord) :
    Work.Handles (m.validationProblem? schema) (m.accepted schema) [r] w
      (m.validateOne schema w r) := by
  simp only [validateOne]
  split <;> rename_i valid <;>
    exact ⟨by simp [validationProblem?, valid]; rfl, by simp [accepted, valid]; rfl⟩

/-- The first records are transformed, and all of them if nothing stops that. -/
theorem transformRecords_handles (em : EntityMapping) (tools : Toolbox)
    (sources : List SourceRecord) (s : MigrationState σ) (step : Step) :
    ∃ done rest, done ++ rest = sources ∧
      Work.Handles (m.transformProblem? em tools) (m.transformed em tools) done
        { state := s, step } (m.transformRecords em tools sources s step).1 ∧
      ((m.transformRecords em tools sources s step).2 = none → rest = []) :=
  Work.Handles.overBatches (fun w batch =>
    (Work.Handles.foldl (m.transformOne_handles em tools) batch w).report _ _ _ _) _ _ _

/-- The first records are validated, and all of them if nothing stops that. -/
theorem validateRecords_handles (schema : Option EntitySchema) (records : List TargetRecord)
    (s : MigrationState σ) (step : Step) :
    ∃ done rest, done ++ rest = records ∧
      Work.Handles (m.validationProblem? schema) (m.accepted schema) done
        { state := s, step } (m.validateRecords schema records s step).1 ∧
      ((m.validateRecords schema records s step).2 = none → rest = []) :=
  Work.Handles.overBatches (fun w batch =>
    (Work.Handles.foldl (m.validateOne_handles schema) batch w).report _ _ _ _) _ _ _

/-! ## Loading -/

theorem countLoad_new (entity : String) (step : Step) : countLoad { entity } step = step := by
  simp [countLoad]

theorem countLoad_merge (r q : LoadResult) (step : Step) :
    countLoad (r.merge q) step = countLoad q (countLoad r step) := by
  simp [countLoad, LoadResult.merge, Nat.add_assoc]

theorem countLoad_balanced {r : LoadResult} {step : Step} (h : r.Balanced) (own : step.Balanced) :
    (countLoad r step).Balanced := by
  have attempted := h.attempted
  have processed := own.processed
  refine ⟨?_, ?_⟩
  · simp only [countLoad]
    omega
  · simp only [countLoad, List.length_append, h.errors, own.errors]

/-- Records of an entity were loaded one by one, and what came of it was taken down. -/
structure Sending.Loads (loader : Loader (Target σ)) (entity : String) (upsert : Bool)
    (xs : List TargetRecord) (v w : Sending σ) : Prop where
  step : w.step = countLoad (loader.loadEach xs entity upsert v.state.target).1 v.step
  target : w.state.target = (loader.loadEach xs entity upsert v.state.target).2
  failures : w.state.failures =
    v.state.failures + (loader.loadEach xs entity upsert v.state.target).1.failed

namespace Sending.Loads

variable {loader : Loader (Target σ)} {entity : String} {upsert : Bool} {xs ys : List TargetRecord}
  {u v w : Sending σ}

theorem nil (w : Sending σ) : Loads loader entity upsert [] w w :=
  ⟨(countLoad_new entity w.step).symm, rfl, rfl⟩

theorem append (h : Loads loader entity upsert xs u v) (h' : Loads loader entity upsert ys v w) :
    Loads loader entity upsert (xs ++ ys) u w where
  step := by rw [h'.step, h.step, h.target, loader.loadEach_append, countLoad_merge]
  target := by rw [h'.target, h.target, loader.loadEach_append]
  failures := by
    rw [h'.failures, h.failures, h.target, loader.loadEach_append, Nat.add_assoc]
    rfl

end Sending.Loads

/-- A look at the errors and the requests changes neither the target nor the failures. -/
theorem batchEnd_frame (phase : RunStatus) (s : MigrationState σ) :
    let p := (s.checkBudget m phase).andThen (MigrationState.checkpoint m)
    p.1.target = s.target ∧ p.1.failures = s.failures := by
  simp only [MigrationState.checkBudget]
  split
  · exact ⟨rfl, rfl⟩
  · obtain ⟨run, control, changed, _⟩ := s.checkpoint_frame m
    simp only [Progressed.andThen, changed, and_self]

/-- What sending a batch to a sequential loader comes to. -/
theorem send_sequential {loader : Loader (Target σ)} (sequential : loader.Sequential)
    (batch : Batch) (s : MigrationState σ) :
    m.send loader batch s =
      let p := loader.loadEach batch.records batch.entity batch.upsert s.target
      ({ s.note m (.load batch) with
          target := p.2
          failures := s.failures + p.1.failed
          run := s.run.noteCreated batch.entity p.1.created }, p.1) := by
  have each := sequential batch.records batch.entity batch.upsert s.target
  simp only [send, MigrationState.note, each]

theorem loadBatch_loads {loader : Loader (Target σ)} (sequential : loader.Sequential)
    (entity : String) (total count : Nat) (w : Sending σ) (part : List TargetRecord) :
    Sending.Loads loader entity m.config.upsert part w
      (m.loadBatch loader entity total count w part).1 := by
  let batch : Batch := ⟨entity, part, m.config.upsert⟩
  have sent := m.send_sequential sequential batch w.state
  have step : (m.loadBatch loader entity total count w part).1.step =
      countLoad (m.send loader batch w.state).2 w.step := rfl
  have target : (m.loadBatch loader entity total count w part).1.state.target =
      (m.send loader batch w.state).1.target := (m.batchEnd_frame .loading _).1
  have failures : (m.loadBatch loader entity total count w part).1.state.failures =
      (m.send loader batch w.state).1.failures := (m.batchEnd_frame .loading _).2
  rw [sent] at step target failures
  exact ⟨step, target, failures⟩

/-- The first records are loaded, and all of them if nothing stops that. -/
theorem loadRecords_loads {loader : Loader (Target σ)} (sequential : loader.Sequential)
    (entity : String) (records : List TargetRecord) (s : MigrationState σ) (step : Step) :
    ∃ done rest, done ++ rest = records ∧
      Sending.Loads loader entity m.config.upsert done { state := s, step }
        (m.loadRecords loader entity records s step).1 ∧
      ((m.loadRecords loader entity records s step).2 = none → rest = []) := by
  obtain ⟨done, rest, whole, loaded, all⟩ :=
    overBatches_prefix (R := fun done => Sending.Loads loader entity m.config.upsert done.flatten)
      .nil
      (fun {x xs b c d} first next => by
        rw [List.flatten_singleton] at first
        exact first.append next)
      (fun w part => by
        rw [List.flatten_singleton]
        exact m.loadBatch_loads sequential entity records.length
          (batchCount m.config.batchSize records.length) w part)
      (batches m.config.batchSize records) { state := s, step }
  refine ⟨done.flatten, rest.flatten, ?_, loaded, fun none => by rw [all none]; rfl⟩
  rw [← List.flatten_append, whole, batches_flatten]

end Migration

end DataMigration
