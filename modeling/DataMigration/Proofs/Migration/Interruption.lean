import DataMigration.Proofs.Migration.Loadable
import DataMigration.Proofs.Migration.Lockstep
import DataMigration.Proofs.Migration.Standstill

/-!
# Requests to a run

Pausing and resuming leave no trace but in the control of a run, and a run that is cancelled has
sent a part of what it would have sent. The phases are gone through move by move: most moves do not
look at the control at all, and the checkpoints are where a run may stop.
-/

namespace DataMigration.Migration

open Carrier

variable {σ : Type} {m : Migration σ}

/-- Activities are only ever added. -/
theorem grown (m : Migration σ) :
    Kept m (fun s t : MigrationState σ => s.activities <:+ t.activities) where
  refl _ := List.suffix_refl _
  trans h h' := h.trans h'
  emit _ _ := List.suffix_refl _
  note _ _ _ := List.suffix_cons _ _
  newStep _ _ _ _ := List.suffix_refl _
  checkpoint s := by
    obtain ⟨run, control, changed, _⟩ := s.checkpoint_frame m
    rw [changed]
    exact List.suffix_cons _ _
  finishStep _ _ _ := List.suffix_refl _
  files _ _ := List.suffix_refl _

theorem send_grows (s : MigrationState σ) (loader : Loader (Target σ)) (batch : Batch) :
    s.activities <:+ (m.send loader batch s).1.activities :=
  List.suffix_cons _ _

theorem writeArtifact_quiet (directory name : String) (v : Value) :
    Quiet (fun s : MigrationState σ => s.writeArtifact m directory name v)
      (fun s => s.writeArtifact m.undisturbed directory name v) where
  same s c := by
    simp only [MigrationState.writeArtifact, MigrationState.under, under, undisturbed]
    split
    · rfl
    · split <;> rfl
  still s := by
    simp only [MigrationState.writeArtifact]
    split
    · exact .refl s
    · split <;> exact ⟨rfl, rfl, rfl, rfl⟩

theorem checkBudget_lockstep {phase : RunStatus} :
    Lockstep phase (fun s : MigrationState σ => s.checkBudget m phase)
      (fun s => s.checkBudget m.undisturbed phase) := by
  intro s c flowing running
  change Follows phase (s.checkBudget m phase) ((s.under c).checkBudget m.undisturbed phase)
  simp only [MigrationState.checkBudget]
  by_cases exceeds : m.config.maxErrors < s.failures
  · have exceeds' : m.undisturbed.config.maxErrors < (s.under c).failures := exceeds
    rw [if_pos exceeds, if_pos exceeds']
    exact .fails rfl flowing.unseen
  · have exceeds' : ¬ m.undisturbed.config.maxErrors < (s.under c).failures := exceeds
    rw [if_neg exceeds, if_neg exceeds']
    exact .goesOn flowing running

/-- The look at the errors and then at the requests that ends a batch. -/
theorem batchEnd_lockstep {phase : RunStatus} (active : phase.isActive = true) :
    Lockstep phase
      (fun s : MigrationState σ => (s.checkBudget m phase).andThen (MigrationState.checkpoint m))
      (fun s => (s.checkBudget m.undisturbed phase).andThen
        (MigrationState.checkpoint m.undisturbed)) :=
  checkBudget_lockstep.andThen (.checkpoint active) (grown m.undisturbed).checkpoint

theorem newStep_under (s : MigrationState σ) (c : Control) (name entity : String)
    (phase : RunStatus) :
    (s.under c).newStep m.undisturbed name entity phase =
      ((s.newStep m name entity phase).1.under c, (s.newStep m name entity phase).2) := rfl

theorem endStep_undisturbed (s : MigrationState σ) (step : Step)
    (stop : Option (Stop MigrationError)) :
    s.endStep m.undisturbed step stop = s.endStep m step stop := by
  obtain _ | ⟨e⟩ | ⟨why⟩ := stop <;> rfl

/-! ## Extraction -/

theorem read_quiet (source : Source) :
    Quiet (fun s => m.read s source) (fun s => m.undisturbed.read s source) where
  same s c := by
    simp only [read, undisturbed, under, MigrationState.under]
    split
    · rfl
    · split <;> rfl
  still s := by
    simp only [read]
    split
    · exact .refl s
    · split
      · exact .note m s _
      · exact .refl s

theorem readAll_quiet (sources : List Source) :
    Quiet (m.readAll sources) (m.undisturbed.readAll sources) := by
  induction sources with
  | nil => exact ⟨fun _ _ => rfl, fun s => .refl s⟩
  | cons source rest ih =>
    refine ⟨fun s c => ?_, fun s => ?_⟩
    · have first := (read_quiet (m := m) source).same s c
      have others := ih.same (m.read s source).1 c
      simp only [readAll]
      rw [first]
      simp only [under] at others ⊢
      rw [others]
    · exact ((read_quiet source).still s).trans (ih.still (m.read s source).1)

theorem readAhead_quiet (source : Source) (rest : List Source) :
    Quiet (fun s => m.readAhead s source rest)
      (fun s => m.undisturbed.readAhead s source rest) where
  same s c := by
    have first := (read_quiet (m := m) source).same s c
    have others := (readAll_quiet (m := m)
      (if m.waits s source then rest.take (m.config.workers - 1) else [])).same
      (m.read s source).1 c
    have alike : m.undisturbed.waits (s.under c) source = m.waits s source := rfl
    simp only [readAhead, under, alike] at first others ⊢
    rw [first]
    exact congrArg (fun p => (p.1, (m.read s source).2, p.2)) others
  still s := ((read_quiet source).still s).trans ((readAll_quiet _).still (m.read s source).1)

theorem saveExtracted_quiet (source : Source) (x : Extraction) (step : Step) :
    Quiet (fun s => m.saveExtracted source x s step)
      (fun s => m.undisturbed.saveExtracted source x s step) := by
  have write := writeArtifact_quiet (m := m) "extracted" source.key
    (.arr (x.records.map SourceRecord.toValue))
  refine ⟨fun s c => ?_, fun s => ?_⟩
  · have written := write.same s c
    have alike : m.undisturbed.config = m.config := rfl
    simp only [saveExtracted, under, alike] at written ⊢
    rw [written]
    obtain ⟨t, path, stop⟩ := s.writeArtifact m "extracted" source.key
      (.arr (x.records.map SourceRecord.toValue))
    split
    · cases stop <;> rfl
    · rfl
  · have written := write.still s
    simp only [saveExtracted, state] at written ⊢
    split
    · split <;> rename_i h <;> simpa only [h] using written
    · exact .refl s

theorem absorb_quiet (source : Source) (x : Extraction) (step : Step) :
    Quiet (fun s => m.absorb source x s step) (fun s => m.undisturbed.absorb source x s step) where
  same s c := by
    have saved := (saveExtracted_quiet (m := m) source x (countExtraction x step)).same s c
    simp only [absorb, under] at saved ⊢
    rw [saved]
    rfl
  still s :=
    ((saveExtracted_quiet source x (countExtraction x step)).still s).trans ⟨rfl, rfl, rfl, rfl⟩

theorem newStep_quiet (name entity : String) (phase : RunStatus) :
    Quiet (fun s : MigrationState σ => s.newStep m name entity phase)
      (fun s => s.newStep m.undisturbed name entity phase) :=
  ⟨fun _ _ => rfl, fun _ => ⟨rfl, rfl, rfl, rfl⟩⟩

theorem finishStep_quiet (step : Step) (outcome : Option MigrationError) :
    Quiet (fun s : MigrationState σ => s.finishStep m step outcome)
      (fun s => s.finishStep m.undisturbed step outcome) :=
  ⟨fun _ _ => rfl, fun _ => ⟨rfl, rfl, rfl, rfl⟩⟩

theorem extractStep_lockstep (source : Source) (x : Extracted) :
    Lockstep .extracting (m.extractStep source x) (m.undisturbed.extractStep source x) := by
  let name := "Extract " ++ source.entity ++ " from " ++ source.service
  have opened := newStep_quiet (m := m) name source.entity .extracting
  intro s c flowing running
  have flows := flowing.still (opened.still s)
  have checked := Lockstep.checkpoint (m := m) (rfl : RunStatus.isActive .extracting = true)
  cases x with
  | ok x =>
    let step := (s.newStep m name source.entity .extracting).2
    have absorbed := absorb_quiet (m := m) source x step
    have done : Lockstep .extracting
        (fun p : MigrationState σ × Step => (p.1.finishStep m p.2 none).checkpoint m)
        (fun p => (p.1.finishStep m.undisturbed p.2 none).checkpoint m.undisturbed) :=
      fun p c flowing running => (finishStep_quiet p.2 none).lockstep checked p.1 c flowing running
    simp only [extractStep]
    exact absorbed.lockstep done _ c flows running
  | error e =>
    have done := (finishStep_quiet (m := m) (s.newStep m name source.entity .extracting).2
      (some (.extraction e)))
    by_cases goesOn : m.config.continueOnError = true
    · have goesOn' : m.undisturbed.config.continueOnError = true := goesOn
      simp only [extractStep, goesOn, goesOn', if_true]
      exact done.lockstep checked _ c flows running
    · have stops : ¬ m.undisturbed.config.continueOnError = true := goesOn
      simp only [extractStep, goesOn, stops]
      exact .fails rfl (flows.still (done.still _)).unseen

theorem extractAll_lockstep (sources : List Source) (ahead : List Extracted) :
    Lockstep .extracting (m.extractAll sources ahead) (m.undisturbed.extractAll sources ahead) := by
  induction sources generalizing ahead with
  | nil => exact fun s c flowing running => .goesOn flowing running
  | cons source rest ih =>
    have step : ∀ x ahead, Lockstep .extracting
        (fun s => (m.extractStep source x s).andThen (m.extractAll rest ahead))
        (fun s => (m.undisturbed.extractStep source x s).andThen
          (m.undisturbed.extractAll rest ahead)) :=
      fun x ahead => (extractStep_lockstep source x).andThen (ih ahead)
        ((grown m.undisturbed).extractAll (fun _ _ => List.suffix_refl _) rest ahead)
    cases ahead with
    | nil =>
      have done : Lockstep .extracting
          (fun p : MigrationState σ × Extracted × List Extracted =>
            (m.extractStep source p.2.1 p.1).andThen (m.extractAll rest p.2.2))
          (fun p => (m.undisturbed.extractStep source p.2.1 p.1).andThen
            (m.undisturbed.extractAll rest p.2.2)) :=
        fun p c flowing running => step p.2.1 p.2.2 p.1 c flowing running
      exact (readAhead_quiet source rest).lockstep done
    | cons x ahead => exact step x ahead

/-! ## Transformation -/

theorem report_lockstep {phase : RunStatus} {f g : MigrationState σ → Progressed σ}
    (h : Lockstep phase f g) (total : Nat) (verb : String) :
    Lockstep phase (fun w : Work σ => w.report phase total verb f)
      (fun w => w.report phase total verb g) := by
  intro w c flowing running
  let e := ProgressEvent.ofProgress phase w.step total
    (verb ++ " " ++ natText w.step.processed ++ " of " ++ natText total)
  have told : Follows phase (f (w.state.emit e)) (g ((w.state.emit e).under c)) :=
    h _ c (flowing.still ⟨rfl, rfl, rfl, rfl⟩) running
  exact told.map (k := fun _ t => { w with state := t })
    ⟨fun _ => ⟨fun _ _ => rfl, fun t => .refl t⟩, fun _ _ => rfl, fun _ _ => rfl⟩

theorem transformOne_quiet (em : EntityMapping) (tools : Toolbox) (source : SourceRecord) :
    Quiet (fun w => m.transformOne em tools w source)
      (fun w => m.undisturbed.transformOne em tools w source) := by
  have noted := Quiet.notes m ((em.calls tools [source]).map Activity.operator)
  refine ⟨fun w c => ?_, fun w => ?_⟩
  · have watched := noted.same w.state c
    have alike : m.undisturbed.now = m.now := rfl
    simp only [transformOne, Work.noteAll, under, alike] at watched ⊢
    rw [watched]
    split
    · split <;> rfl
    · rfl
  · have watched := noted.still w.state
    simp only [transformOne]
    split
    · split
      · exact watched
      · exact watched.trans ⟨rfl, rfl, rfl, rfl⟩
    · exact watched.trans ⟨rfl, rfl, rfl, rfl⟩

theorem transformBatch_lockstep (em : EntityMapping) (tools : Toolbox) (total : Nat)
    (batch : List SourceRecord) :
    Lockstep .transforming (fun w => m.transformBatch em tools total w batch)
      (fun w => m.undisturbed.transformBatch em tools total w batch) := by
  have each : Quiet (fun w => batch.foldl (m.transformOne em tools) w)
      (fun w => batch.foldl (m.undisturbed.transformOne em tools) w) :=
    .foldl (transformOne_quiet em tools) batch
  exact each.lockstep (report_lockstep (batchEnd_lockstep rfl) total "Transformed")

theorem transformRecords_lockstep (em : EntityMapping) (tools : Toolbox)
    (sources : List SourceRecord) (step : Step) :
    Lockstep .transforming (fun s => m.transformRecords em tools sources s step)
      (fun s => m.undisturbed.transformRecords em tools sources s step) :=
  fun s c flowing running => Lockstep.overBatches
    (transformBatch_lockstep em tools sources.length)
    ((grown m.undisturbed).transformBatch (fun _ _ => List.suffix_refl _) em tools sources.length)
    (batches m.config.batchSize sources) ({ state := s, step } : Work σ) c flowing running

theorem transformEnd_bookkeeping (em : EntityMapping) :
    Bookkeeping (fun stop (w : Work σ) => MigrationState.endStep m { w.state with
      working := if Stop.isOver stop then addRecords em.target w.records w.state.working
        else w.state.working } w.step stop) where
  quiet stop := by
    obtain _ | ⟨e⟩ | ⟨why⟩ := stop <;> exact ⟨fun _ _ => rfl, fun _ => ⟨rfl, rfl, rfl, rfl⟩⟩
  control stop _ := by obtain _ | ⟨e⟩ | ⟨why⟩ := stop <;> rfl
  activities stop _ := by obtain _ | ⟨e⟩ | ⟨why⟩ := stop <;> rfl

theorem transformStep_lockstep (tools : Toolbox) (em : EntityMapping) :
    Lockstep .transforming (m.transformStep tools em) (m.undisturbed.transformStep tools em) := by
  intro s c flowing running
  let name := "Transform " ++ em.source.entity ++ " to " ++ em.target.entity
  have flows := flowing.still
    ((newStep_quiet (m := m) name em.target.entity .transforming).still s)
  let sources := s.extractedRecords em.source.service em.source.entity
  by_cases none : sources = []
  · have none' : (s.under c).extractedRecords em.source.service em.source.entity = [] := none
    simp only [under]
    rw [transformStep_of_nil m tools none, transformStep_of_nil m.undisturbed tools none']
    exact .goesOn (flows.still ((finishStep_quiet (m := m) _ _).still _)) running
  · have some : (s.under c).extractedRecords em.source.service em.source.entity ≠ [] := none
    simp only [under]
    rw [transformStep_of_ne_nil m tools none, transformStep_of_ne_nil m.undisturbed tools some]
    simp only [newStep_under, endStep_undisturbed]
    have work := transformRecords_lockstep (m := m) em tools sources
      (s.newStep m name em.target.entity .transforming).2 _ c flows running
    exact work.map (transformEnd_bookkeeping em)

theorem transformAll_lockstep (tools : Toolbox) (ems : List EntityMapping) :
    Lockstep .transforming (m.transformAll tools ems) (m.undisturbed.transformAll tools ems) := by
  induction ems with
  | nil => exact fun s c flowing running => .goesOn flowing running
  | cons em rest ih =>
    exact (transformStep_lockstep tools em).andThen ih
      ((grown m.undisturbed).transformAll (fun _ _ => List.suffix_refl _)
        (fun _ _ => List.suffix_refl _) tools rest)

theorem saveTransformed_quiet :
    Quiet (fun s => m.saveTransformed s) (fun s => m.undisturbed.saveTransformed s) := by
  let save (m : Migration σ) (s : MigrationState σ) (w : WorkingSet) : MigrationState σ :=
    (s.writeArtifact m "transformed" (recordKey w.target.service w.target.entity)
      (.arr (w.records.map TargetRecord.toValue))).1
  have each : ∀ sets : List WorkingSet, Quiet (fun s : MigrationState σ => sets.foldl (save m) s)
      (fun s => sets.foldl (save m.undisturbed) s) :=
    Quiet.foldl fun _ => (writeArtifact_quiet _ _ _).fst
  refine ⟨fun s c => ?_, fun s => ?_⟩
  · have saved := (each s.working).same s c
    have alike : m.undisturbed.config = m.config := rfl
    simp only [saveTransformed, alike]
    by_cases wanted : m.config.saveTransformed = true
    · rw [if_pos wanted, if_pos wanted]
      exact saved
    · rw [if_neg wanted, if_neg wanted]
  · simp only [saveTransformed]
    split
    · exact (each s.working).still s
    · exact .refl s

theorem runTransformation_lockstep (mapping : Mapping) :
    Lockstep .transforming (m.runTransformation mapping)
      (m.undisturbed.runTransformation mapping) := by
  exact (transformAll_lockstep (m.toolbox (some mapping)) mapping.entities).andThen
    saveTransformed_quiet.goesOn (grown m.undisturbed).saveTransformed

/-! ## Validation -/

theorem validateOne_quiet (schema : Option EntitySchema) (r : TargetRecord) :
    Quiet (fun w => m.validateOne schema w r) (fun w => m.undisturbed.validateOne schema w r) := by
  have noted := Quiet.notes m (m.ruleCalls schema r)
  refine ⟨fun w c => ?_, fun w => ?_⟩
  · have watched := noted.same w.state c
    have calls : m.undisturbed.ruleCalls schema r = m.ruleCalls schema r := rfl
    have alike : m.undisturbed.validated schema r = m.validated schema r := rfl
    simp only [validateOne, Work.noteAll, under, calls, alike] at watched ⊢
    rw [watched]
    split <;> rfl
  · have watched := noted.still w.state
    simp only [validateOne]
    split <;> exact watched

theorem validateBatch_lockstep (schema : Option EntitySchema) (total : Nat)
    (batch : List TargetRecord) :
    Lockstep .validating (fun w => m.validateBatch schema total w batch)
      (fun w => m.undisturbed.validateBatch schema total w batch) := by
  have each : Quiet (fun w => batch.foldl (m.validateOne schema) w)
      (fun w => batch.foldl (m.undisturbed.validateOne schema) w) :=
    .foldl (validateOne_quiet schema) batch
  exact each.lockstep (report_lockstep (.checkpoint rfl) total "Validated")

theorem validateRecords_lockstep (schema : Option EntitySchema) (records : List TargetRecord)
    (step : Step) :
    Lockstep .validating (fun s => m.validateRecords schema records s step)
      (fun s => m.undisturbed.validateRecords schema records s step) :=
  fun s c flowing running => Lockstep.overBatches
    (validateBatch_lockstep schema records.length)
    ((grown m.undisturbed).validateBatch schema records.length)
    (batches m.config.batchSize records) ({ state := s, step } : Work σ) c flowing running

/-- What a validation gives, as something that holds the state. -/
def carried {α : Type} (p : α × Progressed σ) :
    (MigrationState σ × α) × Option (Stop MigrationError) :=
  ((p.2.1, p.1), p.2.2)

theorem validateEnd_bookkeeping (set : WorkingSet) :
    Bookkeeping (fun stop (w : Work σ) => (w.state.endStep m w.step stop,
      ({ set with records := if Stop.isOver stop then w.records else [] } : WorkingSet))) where
  quiet stop := by
    obtain _ | ⟨e⟩ | ⟨why⟩ := stop <;> exact ⟨fun _ _ => rfl, fun _ => ⟨rfl, rfl, rfl, rfl⟩⟩
  control stop _ := by obtain _ | ⟨e⟩ | ⟨why⟩ := stop <;> rfl
  activities stop _ := by obtain _ | ⟨e⟩ | ⟨why⟩ := stop <;> rfl

theorem validateStep_lockstep (set : WorkingSet) :
    Lockstep .validating (fun s => carried (m.validateStep set s))
      (fun s => carried (m.undisturbed.validateStep set s)) := by
  intro s c flowing running
  let opened := (s.newStep m ("Validate " ++ set.target.entity) set.target.entity .validating).1
  have work := validateRecords_lockstep (m := m) (m.registry.entitySchema? set.target) set.records
    (m.validationStep set s) opened c (flowing.still ⟨rfl, rfl, rfl, rfl⟩) running
  have ended := work.map (validateEnd_bookkeeping (m := m) set)
  simp only [validateStep_eq, carried, endStep_undisturbed]
  exact ended

theorem validateAll_lockstep (sets : List WorkingSet) :
    Lockstep .validating (fun s => carried (m.validateAll sets s))
      (fun s => carried (m.undisturbed.validateAll sets s)) := by
  induction sets with
  | nil => exact fun s c flowing running => .goesOn flowing running
  | cons set rest ih =>
    intro s c flowing running
    have step := validateStep_lockstep (m := m) set s c flowing running
    have grows := (grown m.undisturbed).validateAll rest
    revert step
    simp only [validateAll]
    generalize m.validateStep set s = p, m.undisturbed.validateStep set (under s c) = q
    obtain ⟨a, s, stop⟩ := p
    obtain ⟨b, t, stop'⟩ := q
    simp only [carried]
    generalize h : (((s, a), stop) : (MigrationState σ × WorkingSet) × Option (Stop MigrationError)) = p
    generalize h' : (((t, b), stop') : (MigrationState σ × WorkingSet) × Option (Stop MigrationError)) = q
    intro step
    cases step with
    | @goesOn d c flowing running =>
      cases h
      cases h'
      exact (ih s c flowing running).map (k := fun _ d => (d.1, a :: d.2))
        ⟨fun _ => ⟨fun _ _ => rfl, fun _ => .refl _⟩, fun _ _ => rfl, fun _ _ => rfl⟩
    | @fails d c stop unasked unseen =>
      cases h
      cases h'
      exact .fails (b := (s, a :: rest)) (c := c) unasked unseen
    | cut halted part =>
      cases h
      cases h'
      refine .cut (b := (s, a :: rest)) halted (part.trans ?_)
      cases stop' with
      | none => exact grows t
      | some other => exact List.suffix_refl _

theorem runValidation_lockstep :
    Lockstep .validating m.runValidation m.undisturbed.runValidation :=
  fun s c flowing running => (validateAll_lockstep s.working s c flowing running).map
    (k := fun _ d => ({ d.1 with working := d.2 } : MigrationState σ))
    ⟨fun _ => ⟨fun _ _ => rfl, fun _ => ⟨rfl, rfl, rfl, rfl⟩⟩, fun _ _ => rfl, fun _ _ => rfl⟩

/-! ## Loading -/

theorem send_quiet (loader : Loader (Target σ)) (batch : Batch) :
    Quiet (m.send loader batch) (m.undisturbed.send loader batch) where
  same _ _ := rfl
  still s := (Still.note m s (.load batch)).trans ⟨rfl, rfl, rfl, rfl⟩

theorem loadBatch_lockstep (loader : Loader (Target σ)) (entity : String) (total count : Nat)
    (records : List TargetRecord) :
    Lockstep .loading (fun w => m.loadBatch loader entity total count w records)
      (fun w => m.undisturbed.loadBatch loader entity total count w records) := by
  intro w c flowing running
  let batch : Batch := ⟨entity, records, m.config.upsert⟩
  let p := m.send loader batch w.state
  let step := countLoad p.2 w.step
  let e := ProgressEvent.ofProgress .loading step total
    ("Loaded batch " ++ natText (w.sent + 1) ++ " of " ++ natText count)
  have looked := batchEnd_lockstep (m := m) rfl (p.1.emit e) c
    (flowing.still (((send_quiet (m := m) loader batch).still w.state).trans ⟨rfl, rfl, rfl, rfl⟩))
    running
  exact looked.map (k := fun _ t => ({ state := t, step, sent := w.sent + 1 } : Sending σ))
    ⟨fun _ => ⟨fun _ _ => rfl, fun _ => .refl _⟩, fun _ _ => rfl, fun _ _ => rfl⟩

theorem loadRecords_lockstep (loader : Loader (Target σ)) (entity : String)
    (records : List TargetRecord) (step : Step) :
    Lockstep .loading (fun s => m.loadRecords loader entity records s step)
      (fun s => m.undisturbed.loadRecords loader entity records s step) :=
  fun s c flowing running => Lockstep.overBatches
    (loadBatch_lockstep loader entity records.length
      (batchCount m.config.batchSize records.length))
    ((grown m.undisturbed).loadBatch (send_grows ·) loader entity records.length _)
    (batches m.config.batchSize records) ({ state := s, step } : Sending σ) c flowing running

theorem loadEnd_bookkeeping :
    Bookkeeping (fun stop (w : Sending σ) => w.state.endStep m w.step stop) where
  quiet stop := by
    obtain _ | ⟨e⟩ | ⟨why⟩ := stop <;> exact ⟨fun _ _ => rfl, fun _ => ⟨rfl, rfl, rfl, rfl⟩⟩
  control stop _ := by obtain _ | ⟨e⟩ | ⟨why⟩ := stop <;> rfl
  activities stop _ := by obtain _ | ⟨e⟩ | ⟨why⟩ := stop <;> rfl

theorem loadStep_lockstep (loader : Loader (Target σ)) (entity : String) :
    Lockstep .loading (m.loadStep loader entity) (m.undisturbed.loadStep loader entity) := by
  intro s c flowing running
  have work := loadRecords_lockstep (m := m) loader entity (m.recordsToLoad s.working entity)
    (m.beginLoad entity s).2 (m.beginLoad entity s).1 c (flowing.still ⟨rfl, rfl, rfl, rfl⟩) running
  have ended := work.map (loadEnd_bookkeeping (m := m))
  simp only [loadStep_eq, endStep_undisturbed]
  exact ended

theorem loadAll_lockstep (loader : Loader (Target σ)) (entities : List String) :
    Lockstep .loading (m.loadAll loader entities) (m.undisturbed.loadAll loader entities) := by
  induction entities with
  | nil => exact fun s c flowing running => .goesOn flowing running
  | cons entity rest ih =>
    exact (loadStep_lockstep loader entity).andThen ih
      ((grown m.undisturbed).loadAll (send_grows ·) (fun _ _ => List.suffix_refl _) loader rest)

theorem runLoading_lockstep (mapping : Mapping) :
    Lockstep .loading (m.runLoading mapping) (m.undisturbed.runLoading mapping) := by
  intro s c flowing running
  have alike : m.undisturbed.connectors.loader m.undisturbed.config =
    m.connectors.loader m.config := rfl
  simp only [runLoading, under]
  rw [alike]
  split
  · rename_i stop failed
    cases stop with
    | error e => exact .fails rfl flowing.unseen
    | standstill why =>
      obtain ⟨rfl, _⟩ := Connectors.loader_standstill failed
      exact .fails rfl flowing.unseen
  · rename_i loader _
    by_cases connected : loader.connected = true
    · rw [if_pos connected, if_pos connected]
      exact loadAll_lockstep loader (loadEntities mapping s.working)
        { s with loader := some loader, target := { s.target with memory := [] } } c
        (flowing.still ⟨rfl, rfl, rfl, rfl⟩) running
    · rw [if_neg connected, if_neg connected]
      exact .fails rfl flowing.unseen

/-! ## The whole run -/

theorem goTo_follows {phase : RunStatus} (next : RunStatus) (follows : phase.next? = some next)
    (s : MigrationState σ) (c : Control) (flowing : Flowing phase s)
    (running : c.signal = .running) :
    Follows next (s.goTo m next) ((s.under c).goTo m.undisturbed next) := by
  obtain ⟨run, goes, status, unpaused, errors⟩ :=
    Run.goTo?_next m.now (flowing.status ▸ follows : s.run.status.next? = some next)
  have goes' : (s.under c).run.goTo? next m.undisturbed.now = some run := goes
  simp only [MigrationState.goTo, goes, goes']
  exact .goesOn (b := { s with run })
    ⟨status, unpaused, errors.trans flowing.errors, flowing.unseen⟩ running

theorem phase_follows {phase : RunStatus} (next : RunStatus) (follows : phase.next? = some next)
    {work work' : MigrationState σ → Progressed σ} (lockstep : Lockstep next work work')
    (grows : ∀ s, s.activities <:+ (work' s).1.activities) (s : MigrationState σ) (c : Control)
    (flowing : Flowing phase s) (running : c.signal = .running) :
    Follows next (m.phase next work s) (m.undisturbed.phase next work' (s.under c)) :=
  (goTo_follows next follows s c flowing running).andThen lockstep grows

theorem goTo_grows (m : Migration σ) (next : RunStatus) (s : MigrationState σ) :
    s.activities <:+ (s.goTo m next).1.activities := by
  obtain ⟨run, changed, _⟩ := s.goTo_frame m next
  rw [changed]

theorem phase_grows {m : Migration σ} {next : RunStatus} {work : MigrationState σ → Progressed σ}
    (grows : ∀ s, s.activities <:+ (work s).1.activities) (s : MigrationState σ) :
    s.activities <:+ (m.phase next work s).1.activities :=
  (grown m).andThen (goTo_grows m next s) grows

section Growth

variable (m : Migration σ)

theorem runExtraction_grows (s : MigrationState σ) :
    s.activities <:+ (m.runExtraction s).1.activities :=
  (grown m).runExtraction (fun _ _ => List.suffix_refl _) s

theorem runTransformation_grows (mapping : Mapping) (s : MigrationState σ) :
    s.activities <:+ (m.runTransformation mapping s).1.activities :=
  (grown m).runTransformation (fun _ _ => List.suffix_refl _) (fun _ _ => List.suffix_refl _)
    mapping s

theorem runValidation_grows (s : MigrationState σ) :
    s.activities <:+ (m.runValidation s).1.activities :=
  (grown m).runValidation (fun _ _ => List.suffix_refl _) s

theorem runLoading_grows (mapping : Mapping) (s : MigrationState σ) :
    s.activities <:+ (m.runLoading mapping s).1.activities :=
  (grown m).runLoading (send_grows ·) (fun _ _ => List.suffix_refl _)
    (fun _ _ => List.suffix_refl _) mapping s

end Growth

theorem phases_follows (mapping : Mapping) (s : MigrationState σ) (c : Control)
    (flowing : Flowing .pending s) (running : c.signal = .running) :
    Follows .completed (m.phases mapping s) (m.undisturbed.phases mapping (s.under c)) := by
  have extracted := phase_follows (m := m) .extracting rfl (extractAll_lockstep m.config.sources [])
    (runExtraction_grows m.undisturbed) s c flowing running
  have transformed := extracted.andThen
    (phase_follows (m := m) .transforming rfl (runTransformation_lockstep mapping)
      (runTransformation_grows m.undisturbed mapping))
    (phase_grows (runTransformation_grows m.undisturbed mapping))
  have validated := transformed.andThen
    (phase_follows (m := m) .validating rfl runValidation_lockstep
      (runValidation_grows m.undisturbed))
    (phase_grows (runValidation_grows m.undisturbed))
  have loaded := validated.andThen
    (phase_follows (m := m) .loading rfl (runLoading_lockstep mapping)
      (runLoading_grows m.undisturbed mapping))
    (phase_grows (runLoading_grows m.undisturbed mapping))
  exact loaded.andThen (goTo_follows .completed rfl)
    (goTo_grows m.undisturbed .completed)

theorem preflight_lockstep (mapping : Mapping) {phase : RunStatus} :
    Lockstep phase (m.preflight mapping) (m.undisturbed.preflight mapping) := by
  intro s c flowing running
  have alike : m.undisturbed.preflightProblem? = m.preflightProblem? := rfl
  simp only [preflight, under, alike]
  cases mapping.entities.filterMap m.preflightProblem? with
  | nil => exact .goesOn flowing running
  | cons _ _ => exact .fails rfl flowing.unseen

theorem phases_grows (m : Migration σ) (mapping : Mapping) (s : MigrationState σ) :
    s.activities <:+ (m.phases mapping s).1.activities :=
  (grown m).phases (fun s next _ => goTo_grows m next s) (fun _ _ => List.suffix_refl _)
    (fun _ _ => List.suffix_refl _) (fun _ _ => List.suffix_refl _) (send_grows ·)
    (fun _ _ => List.suffix_refl _) (fun _ _ => List.suffix_refl _) (goTo_grows m .completed)
    mapping s

theorem resolveMapping_error {s : MigrationState σ} {e : MigrationError}
    (h : m.resolveMapping s = .error e) : e.isCancel = false := by
  simp only [resolveMapping] at h
  split at h
  · cases h
  · split at h <;> cases h
    rfl
  · cases h
    rfl

theorem execute_follows (s : MigrationState σ) (c : Control) (flowing : Flowing .pending s)
    (running : c.signal = .running) :
    Follows .completed (m.execute s) (m.undisturbed.execute (s.under c)) := by
  have checks : m.undisturbed.config.check = m.config.check := rfl
  have resolves : m.undisturbed.resolveMapping (s.under c) = m.resolveMapping s := rfl
  simp only [execute, checks, resolves]
  cases m.config.check with
  | error e => exact .fails rfl flowing.unseen
  | ok _ =>
    cases h : m.resolveMapping s with
    | error e => exact .fails (resolveMapping_error h) flowing.unseen
    | ok mapping =>
      have ready : Flowing .pending (adopt mapping s) :=
        ⟨flowing.status, flowing.unpaused, flowing.errors, flowing.unseen⟩
      exact (preflight_lockstep mapping (adopt mapping s) c ready running).andThen
        (phases_follows mapping) (phases_grows m.undisturbed mapping)

end DataMigration.Migration
