import DataMigration.Migration.Run
import DataMigration.Proofs.Migration.Batches
import DataMigration.Proofs.Migration.Checkpoint

/-!
# What every move of a run keeps

All phases change the state by the same few moves, and each phase adds some of its own. A relation
between states that the moves keep is kept by the whole phase, however far it comes. So whatever is
to be shown of a phase, that something stays as it is or only grows, is shown of single moves.
-/

namespace DataMigration

variable {σ : Type}

theorem Progressed.andThen_eq_none_iff {p : Progressed σ} {f : MigrationState σ → Progressed σ}
    {t : MigrationState σ} :
    p.andThen f = (t, none) ↔ ∃ s, p = (s, none) ∧ f s = (t, none) := by
  obtain ⟨s, _ | e⟩ := p <;> simp [andThen]

namespace MigrationState

/-- At the end of work that came to no standstill the step is finished. -/
@[simp] theorem endStep_map (m : Migration σ) (s : MigrationState σ) (step : Step)
    (outcome : Option MigrationError) :
    s.endStep m step (outcome.map .error) = s.finishStep m step outcome := by
  cases outcome <;> rfl

/-- The end of a step changes the account and what is told only. -/
theorem endStep_unmoved {α : Type} (m : Migration σ) (f : MigrationState σ → α)
    (own : ∀ (s : MigrationState σ) run events, f { s with run, events } = f s)
    (s : MigrationState σ) (step : Step) (stop : Option (Stop MigrationError)) :
    f (s.endStep m step stop) = f s := by
  obtain _ | ⟨e⟩ | ⟨why⟩ := stop
  · exact own s _ _
  · exact own s _ _
  · rfl

theorem endStep_working (m : Migration σ) (s : MigrationState σ) (step : Step)
    (stop : Option (Stop MigrationError)) : (s.endStep m step stop).working = s.working :=
  endStep_unmoved m MigrationState.working (fun _ _ _ => rfl) s step stop

theorem endStep_created (m : Migration σ) (s : MigrationState σ) (step : Step)
    (stop : Option (Stop MigrationError)) :
    (s.endStep m step stop).run.created = s.run.created := by
  obtain _ | ⟨e⟩ | ⟨why⟩ := stop <;> rfl

theorem endStep_failures (m : Migration σ) (s : MigrationState σ) (step : Step)
    (stop : Option (Stop MigrationError)) : (s.endStep m step stop).failures = s.failures :=
  endStep_unmoved m MigrationState.failures (fun _ _ _ => rfl) s step stop

end MigrationState

namespace Migration

variable {m : Migration σ} {tools : Toolbox} {em : EntityMapping} {s : MigrationState σ}

/-- An entity mapping without records. -/
theorem transformStep_of_nil (m : Migration σ) (tools : Toolbox)
    (h : s.extractedRecords em.source.service em.source.entity = []) :
    m.transformStep tools em s =
      let p := s.newStep m ("Transform " ++ em.source.entity ++ " to " ++ em.target.entity)
        em.target.entity .transforming
      (p.1.finishStep m { p.2 with warnings := p.2.warnings ++
        ["No source data found for " ++ recordKey em.source.service em.source.entity] } none,
        none) := by
  simp only [transformStep]
  split
  · rfl
  · rename_i some
    exact absurd h some

/-- An entity mapping with records. -/
theorem transformStep_of_ne_nil (m : Migration σ) (tools : Toolbox)
    (h : s.extractedRecords em.source.service em.source.entity ≠ []) :
    m.transformStep tools em s =
      let p := s.newStep m ("Transform " ++ em.source.entity ++ " to " ++ em.target.entity)
        em.target.entity .transforming
      let q := m.transformRecords em tools
        (s.extractedRecords em.source.service em.source.entity) p.1 p.2
      let working := if Stop.isOver q.2 then addRecords em.target q.1.records q.1.state.working
        else q.1.state.working
      (MigrationState.endStep m { q.1.state with working } q.1.step q.2, q.2) := by
  simp only [transformStep]
  split
  · rename_i none
    exact absurd none h
  · rfl

/-- A new run begins with the mapping that is there. -/
theorem resolveMapping_fresh (m : Migration σ) (s : MigrationState σ) :
    m.resolveMapping (m.fresh s) = m.resolveMapping s := rfl

/-- The step of a working set when it begins. -/
def validationStep (m : Migration σ) (set : WorkingSet) (s : MigrationState σ) : Step :=
  let step := (s.newStep m ("Validate " ++ set.target.entity) set.target.entity .validating).2
  if (m.registry.entitySchema? set.target).isSome then step
  else { step with warnings := step.warnings ++ [noSchemaWarning set.target] }

theorem validateStep_eq (m : Migration σ) (set : WorkingSet) (s : MigrationState σ) :
    m.validateStep set s =
      let q := m.validateRecords (m.registry.entitySchema? set.target) set.records
        (s.newStep m ("Validate " ++ set.target.entity) set.target.entity .validating).1
        (m.validationStep set s)
      ({ set with records := if Stop.isOver q.2 then q.1.records else [] },
        q.1.state.endStep m q.1.step q.2, q.2) := rfl

/-- The state and the step with which the loading of an entity begins. -/
def beginLoad (m : Migration σ) (entity : String) (s : MigrationState σ) :
    MigrationState σ × Step :=
  let (opened, step) := s.newStep m ("Load " ++ entity) entity .loading
  ({ opened with loadedEntities := s.loadedEntities ++ [entity] },
    { step with
      skipped := (entityRecords s.working entity).length -
        (m.recordsToLoad s.working entity).length })

theorem loadStep_eq (m : Migration σ) (loader : Loader (Target σ)) (entity : String)
    (s : MigrationState σ) :
    m.loadStep loader entity s =
      let q := m.loadRecords loader entity (m.recordsToLoad s.working entity)
        (m.beginLoad entity s).1 (m.beginLoad entity s).2
      (q.1.state.endStep m q.1.step q.2, q.2) := rfl

end Migration

/-- A relation that the moves keep which tell nothing. Sending a batch is none of them. -/
structure KeptUntold (m : Migration σ) (R : MigrationState σ → MigrationState σ → Prop) :
    Prop where
  refl : ∀ s, R s s
  trans : ∀ {s t u}, R s t → R t u → R s u
  note : ∀ s a, a.batch? = none → R s (s.note m a)
  checkpoint : ∀ s, R s (s.checkpoint m).1
  files : ∀ (s : MigrationState σ) files, R s { s with files }

/-- A relation that the moves within a step keep: those that tell nothing, and telling an event. -/
structure KeptInside (m : Migration σ) (R : MigrationState σ → MigrationState σ → Prop) : Prop
    extends KeptUntold m R where
  emit : ∀ s e, R s (s.emit e)

/-- A relation that the moves common to all phases keep: those within a step, and its beginning and
end. -/
structure Kept (m : Migration σ) (R : MigrationState σ → MigrationState σ → Prop) : Prop
    extends KeptInside m R where
  newStep : ∀ s name entity phase, R s (s.newStep m name entity phase).1
  finishStep : ∀ s step stop, R s (s.finishStep m step stop)

/-- The moves change the account, the requests, the files and what is told of the way only. -/
theorem Kept.unmoved {α : Type} (m : Migration σ) (f : MigrationState σ → α)
    (own : ∀ (s : MigrationState σ) run control files events activities ids,
      f { s with run, control, files, events, activities, ids } = f s) :
    Kept m (fun s t => f t = f s) where
  refl _ := rfl
  trans h h' := h'.trans h
  emit s _ := own s _ _ _ _ _ _
  note s _ _ := own s _ _ _ _ _ _
  newStep s _ _ _ := own s _ _ _ _ _ _
  checkpoint s := by
    obtain ⟨run, control, changed, _⟩ := s.checkpoint_frame m
    rw [changed]
    exact own s _ _ _ _ _ _
  finishStep s _ _ := own s _ _ _ _ _ _
  files s _ := own s _ _ _ _ _ _

namespace KeptUntold

variable {m : Migration σ} {R : MigrationState σ → MigrationState σ → Prop}

theorem andThen (k : KeptUntold m R) {s : MigrationState σ} {p : Progressed σ} (first : R s p.1)
    {f : MigrationState σ → Progressed σ} (next : ∀ t, R t (f t).1) : R s (p.andThen f).1 := by
  obtain ⟨t, stop⟩ := p
  cases stop with
  | none => exact k.trans first (next t)
  | some e => exact first

theorem checkBudget (k : KeptUntold m R) (phase : RunStatus) (s : MigrationState σ) :
    R s (s.checkBudget m phase).1 := by
  unfold MigrationState.checkBudget
  split <;> exact k.refl s

theorem writeArtifact (k : KeptUntold m R) (s : MigrationState σ) (directory name : String)
    (v : Value) : R s (s.writeArtifact m directory name v).1 := by
  simp only [MigrationState.writeArtifact]
  split
  · exact k.refl s
  · split
    · exact k.files s _
    · exact k.files s _

theorem noteAll (k : KeptUntold m R) (s : MigrationState σ) (activities : List Activity)
    (h : ∀ a ∈ activities, a.batch? = none) :
    R s (activities.foldl (MigrationState.note m) s) :=
  foldl_keeps k.refl k.trans activities (fun t a ha => k.note t a (h a ha)) s

theorem read (k : KeptUntold m R) (s : MigrationState σ) (source : Source) :
    R s (m.read s source).1 := by
  simp only [Migration.read]
  split
  · exact k.refl s
  · split
    · exact k.note s _ rfl
    · exact k.refl s

theorem readAll (k : KeptUntold m R) (sources : List Source) (s : MigrationState σ) :
    R s (m.readAll sources s).1 := by
  induction sources generalizing s with
  | nil => exact k.refl s
  | cons source rest ih => exact k.trans (k.read s source) (ih (m.read s source).1)

theorem readAhead (k : KeptUntold m R) (s : MigrationState σ) (source : Source)
    (rest : List Source) : R s (m.readAhead s source rest).1 :=
  k.trans (k.read s source) (k.readAll _ _)

theorem saveExtracted (k : KeptUntold m R) (source : Source) (x : Extraction) (s : MigrationState σ)
    (step : Step) : R s (m.saveExtracted source x s step).1 := by
  simp only [Migration.saveExtracted]
  split
  · split <;> rename_i h <;> exact congrArg Prod.fst h ▸ k.writeArtifact s _ _ _
  · exact k.refl s

theorem saveTransformed (k : KeptUntold m R) (s : MigrationState σ) :
    R s (m.saveTransformed s) := by
  unfold Migration.saveTransformed
  split
  · exact foldl_keeps k.refl k.trans s.working (fun t _ _ => k.writeArtifact t _ _ _) s
  · exact k.refl s

theorem transformOne (k : KeptUntold m R)
    (failures : ∀ (s : MigrationState σ) n, R s { s with failures := n }) (em : EntityMapping)
    (tools : Toolbox) (w : Migration.Work σ) (source : SourceRecord) :
    R w.state (m.transformOne em tools w source).state := by
  have watched := k.noteAll w.state ((em.calls tools [source]).map Activity.operator) (by
    intro a ha
    obtain ⟨name, _, rfl⟩ := List.mem_map.1 ha
    rfl)
  simp only [Migration.transformOne]
  split
  · split
    · exact watched
    · exact k.trans watched (failures _ _)
  · exact k.trans watched (failures _ _)

theorem validateOne (k : KeptUntold m R) (schema : Option EntitySchema) (w : Migration.Work σ)
    (r : TargetRecord) : R w.state (m.validateOne schema w r).state := by
  have watched := k.noteAll w.state (m.ruleCalls schema r) (by
    intro a ha
    cases schema with
    | none => cases ha
    | some schema =>
      obtain ⟨name, _, rfl⟩ := List.mem_map.1 ha
      rfl)
  simp only [Migration.validateOne]
  split <;> exact watched

/-- What the phases and taking a mapping keep is kept by the work of a run. -/
theorem execute (k : KeptUntold m R)
    (adopt : ∀ (s : MigrationState σ) mapping, R s (Migration.adopt mapping s))
    (phases : ∀ mapping s, R s (m.phases mapping s).1) (s : MigrationState σ) :
    R s (m.execute s).1 := by
  simp only [Migration.execute]
  split
  · exact k.refl s
  · split
    · exact k.refl s
    · rename_i mapping _
      refine k.trans (adopt s mapping) (k.andThen ?_ (phases mapping))
      simp only [Migration.preflight]
      split <;> exact k.refl _

end KeptUntold

namespace KeptInside

variable {m : Migration σ} {R : MigrationState σ → MigrationState σ → Prop}

theorem absorb (k : KeptInside m R)
    (extracted : ∀ (s : MigrationState σ) d, R s { s with extracted := d }) (source : Source)
    (x : Extraction) (s : MigrationState σ) (step : Step) :
    R s (m.absorb source x s step).1 :=
  k.trans (k.saveExtracted source x s (Migration.countExtraction x step))
    (k.trans (k.emit _ _) (extracted _ _))

theorem report (k : KeptInside m R) (w : Migration.Work σ) (phase : RunStatus) (total : Nat)
    (verb : String) {f : MigrationState σ → Progressed σ} (next : ∀ t, R t (f t).1) :
    R w.state (w.report phase total verb f).1.state :=
  k.trans (k.emit _ _) (next _)

section

variable (failures : ∀ (s : MigrationState σ) n, R s { s with failures := n })
include failures

theorem transformBatch (k : KeptInside m R) (em : EntityMapping) (tools : Toolbox) (total : Nat)
    (w : Migration.Work σ) (batch : List SourceRecord) :
    R w.state (m.transformBatch em tools total w batch).1.state := by
  have each : R w.state (batch.foldl (m.transformOne em tools) w).state :=
    foldl_keeps (R := fun v w : Migration.Work σ => R v.state w.state)
      (fun v => k.refl v.state) k.trans batch
      (fun v source _ => k.transformOne failures em tools v source) w
  exact k.trans each (k.report _ _ _ _ fun t => k.andThen (k.checkBudget _ t) k.checkpoint)

theorem transformRecords (k : KeptInside m R) (em : EntityMapping) (tools : Toolbox)
    (sources : List SourceRecord) (s : MigrationState σ) (step : Step) :
    R s (m.transformRecords em tools sources s step).1.state :=
  overBatches_keeps (R := fun v w : Migration.Work σ => R v.state w.state)
    (fun v => k.refl v.state) k.trans _
    (fun w batch _ => k.transformBatch failures em tools _ w batch) { state := s, step }

end

theorem validateBatch (k : KeptInside m R) (schema : Option EntitySchema) (total : Nat)
    (w : Migration.Work σ) (batch : List TargetRecord) :
    R w.state (m.validateBatch schema total w batch).1.state := by
  have each : R w.state (batch.foldl (m.validateOne schema) w).state :=
    foldl_keeps (R := fun v w : Migration.Work σ => R v.state w.state)
      (fun v => k.refl v.state) k.trans batch
      (fun v r _ => k.validateOne schema v r) w
  exact k.trans each (k.report _ _ _ _ k.checkpoint)

theorem validateRecords (k : KeptInside m R) (schema : Option EntitySchema)
    (records : List TargetRecord) (s : MigrationState σ) (step : Step) :
    R s (m.validateRecords schema records s step).1.state :=
  overBatches_keeps (R := fun v w : Migration.Work σ => R v.state w.state)
    (fun v => k.refl v.state) k.trans _ (fun w batch _ => k.validateBatch schema _ w batch)
    { state := s, step }

section

variable (send : ∀ (s : MigrationState σ) loader batch, R s (m.send loader batch s).1)
include send

theorem loadBatch (k : KeptInside m R) (loader : Loader (Target σ)) (entity : String)
    (total count : Nat) (w : Migration.Sending σ) (records : List TargetRecord) :
    R w.state (m.loadBatch loader entity total count w records).1.state :=
  k.trans (send w.state loader _)
    (k.trans (k.emit _ _) (k.andThen (k.checkBudget _ _) k.checkpoint))

theorem loadRecords (k : KeptInside m R) (loader : Loader (Target σ)) (entity : String)
    (records : List TargetRecord) (s : MigrationState σ) (step : Step) :
    R s (m.loadRecords loader entity records s step).1.state :=
  overBatches_keeps (R := fun v w : Migration.Sending σ => R v.state w.state)
    (fun v => k.refl v.state) k.trans _
    (fun w part _ => k.loadBatch send loader entity _ _ w part) { state := s, step }

end

end KeptInside

namespace Kept

variable {m : Migration σ} {R : MigrationState σ → MigrationState σ → Prop}

theorem endStep (k : Kept m R) (s : MigrationState σ) (step : Step)
    (stop : Option (Stop MigrationError)) : R s (s.endStep m step stop) := by
  obtain _ | ⟨e⟩ | ⟨why⟩ := stop
  · exact k.finishStep s step none
  · exact k.finishStep s step (some e)
  · exact k.refl s

/-! ## Extraction -/

section

variable (extracted : ∀ (s : MigrationState σ) d, R s { s with extracted := d })
include extracted

theorem extractStep (k : Kept m R) (source : Source) (x : Migration.Extracted)
    (s : MigrationState σ) : R s (m.extractStep source x s).1 := by
  have opened := k.newStep s ("Extract " ++ source.entity ++ " from " ++ source.service)
    source.entity .extracting
  refine k.trans opened ?_
  cases x with
  | ok x =>
    exact k.trans (k.absorb extracted source x _ _) (k.trans (k.finishStep _ _ _) (k.checkpoint _))
  | error e =>
    simp only [Migration.extractStep]
    split
    · exact k.trans (k.finishStep _ _ _) (k.checkpoint _)
    · exact k.finishStep _ _ _

theorem extractAll (k : Kept m R) (sources : List Source) (ahead : List Migration.Extracted)
    (s : MigrationState σ) : R s (m.extractAll sources ahead s).1 := by
  induction sources generalizing ahead s with
  | nil => exact k.refl s
  | cons source rest ih =>
    cases ahead with
    | nil =>
      exact k.trans (k.readAhead s source rest)
        (k.andThen (k.extractStep extracted source _ _) (ih _))
    | cons x ahead => exact k.andThen (k.extractStep extracted source x s) (ih ahead)

/-- The extraction phase moves and adds extracted records. -/
theorem runExtraction (k : Kept m R) (s : MigrationState σ) : R s (m.runExtraction s).1 :=
  k.extractAll extracted _ _ s

end

/-! ## Transformation -/

section

variable
  (failures : ∀ (s : MigrationState σ) n, R s { s with failures := n })
  (working : ∀ (s : MigrationState σ) ws, R s { s with working := ws })
include failures working

theorem transformStep (k : Kept m R) (tools : Toolbox) (em : EntityMapping)
    (s : MigrationState σ) : R s (m.transformStep tools em s).1 := by
  have opened := k.newStep s ("Transform " ++ em.source.entity ++ " to " ++ em.target.entity)
    em.target.entity .transforming
  refine k.trans opened ?_
  simp only [Migration.transformStep]
  split
  · exact k.finishStep _ _ _
  · exact k.trans (k.transformRecords failures em tools _ _ _)
      (k.trans (working _ _) (k.endStep _ _ _))

theorem transformAll (k : Kept m R) (tools : Toolbox) (ems : List EntityMapping)
    (s : MigrationState σ) : R s (m.transformAll tools ems s).1 := by
  induction ems generalizing s with
  | nil => exact k.refl s
  | cons em rest ih => exact k.andThen (k.transformStep failures working tools em s) ih

/-- The transformation phase moves, counts failures and fills the working set. -/
theorem runTransformation (k : Kept m R) (mapping : Mapping) (s : MigrationState σ) :
    R s (m.runTransformation mapping s).1 :=
  k.andThen (k.transformAll failures working _ _ s) k.saveTransformed

end

/-! ## Validation -/

theorem validateStep (k : Kept m R) (set : WorkingSet) (s : MigrationState σ) :
    R s (m.validateStep set s).2.1 := by
  have opened := k.newStep s ("Validate " ++ set.target.entity) set.target.entity .validating
  exact k.trans opened (k.trans (k.validateRecords _ _ _ _) (k.endStep _ _ _))

theorem validateAll (k : Kept m R) (sets : List WorkingSet) (s : MigrationState σ) :
    R s (m.validateAll sets s).2.1 := by
  induction sets generalizing s with
  | nil => exact k.refl s
  | cons set rest ih =>
    have step := k.validateStep set s
    simp only [Migration.validateAll]
    split <;> rename_i h <;> rw [h] at step
    · exact k.trans step (ih _)
    · exact step

/-- The validation phase moves and thins the working set out. -/
theorem runValidation (k : Kept m R)
    (working : ∀ (s : MigrationState σ) ws, R s { s with working := ws }) (s : MigrationState σ) :
    R s (m.runValidation s).1 :=
  k.trans (k.validateAll s.working s) (working _ _)

/-! ## Loading -/

section

variable
  (send : ∀ (s : MigrationState σ) loader batch, R s (m.send loader batch s).1)
  (loadedEntities : ∀ (s : MigrationState σ) es, R s { s with loadedEntities := es })
include send loadedEntities

theorem loadStep (k : Kept m R) (loader : Loader (Target σ)) (entity : String)
    (s : MigrationState σ) : R s (m.loadStep loader entity s).1 := by
  have opened := k.newStep s ("Load " ++ entity) entity .loading
  exact k.trans opened (k.trans (loadedEntities _ _)
    (k.trans (k.loadRecords send loader entity _ _ _) (k.endStep _ _ _)))

theorem loadAll (k : Kept m R) (loader : Loader (Target σ)) (entities : List String)
    (s : MigrationState σ) : R s (m.loadAll loader entities s).1 := by
  induction entities generalizing s with
  | nil => exact k.refl s
  | cons entity rest ih =>
    exact k.andThen (k.loadStep send loadedEntities loader entity s) ih

/-- The loading phase moves, takes a loader and sends batches. -/
theorem runLoading (k : Kept m R)
    (loader : ∀ (s : MigrationState σ) l, R s { s with
      loader := some l, target := { s.target with memory := [] } })
    (mapping : Mapping) (s : MigrationState σ) : R s (m.runLoading mapping s).1 := by
  simp only [Migration.runLoading]
  split
  · exact k.refl s
  · split
    · exact k.trans (loader s _) (k.loadAll send loadedEntities _ _ _)
    · exact k.refl s

end

/-! ## The whole run -/

section

variable
  (enter : ∀ (s : MigrationState σ) (next : RunStatus), next.isActive = true →
    R s (s.goTo m next).1)
  (extracted : ∀ (s : MigrationState σ) d, R s { s with extracted := d })
  (failures : ∀ (s : MigrationState σ) n, R s { s with failures := n })
  (working : ∀ (s : MigrationState σ) ws, R s { s with working := ws })
include enter extracted failures working

/-- What the moves of the phases before loading keep, and entering a phase too. -/
theorem prepare (k : Kept m R) (mapping : Mapping) (s : MigrationState σ) :
    R s (m.prepare mapping s).1 := by
  have extracting := k.andThen (enter s .extracting rfl) (k.runExtraction extracted)
  have transforming := k.andThen extracting fun s =>
    k.andThen (enter s .transforming rfl) (k.runTransformation failures working mapping)
  exact k.andThen transforming fun s =>
    k.andThen (enter s .validating rfl) (k.runValidation working)

variable
  (send : ∀ (s : MigrationState σ) loader batch, R s (m.send loader batch s).1)
  (loadedEntities : ∀ (s : MigrationState σ) es, R s { s with loadedEntities := es })
  (loader : ∀ (s : MigrationState σ) l, R s { s with
    loader := some l, target := { s.target with memory := [] } })
  (complete : ∀ s : MigrationState σ, R s (s.goTo m .completed).1)
include send loadedEntities loader complete

/-- What all moves keep, and going to another status too, is kept by all phases. -/
theorem phases (k : Kept m R) (mapping : Mapping) (s : MigrationState σ) :
    R s (m.phases mapping s).1 := by
  have prepared := k.prepare enter extracted failures working mapping s
  have loading := k.andThen prepared fun s =>
    k.andThen (enter s .loading rfl) (k.runLoading send loadedEntities loader mapping)
  exact k.andThen loading complete

/-- What all of this and taking a mapping keep is kept by the work of a run. -/
theorem execute (k : Kept m R)
    (adopt : ∀ (s : MigrationState σ) mapping, R s (Migration.adopt mapping s))
    (s : MigrationState σ) : R s (m.execute s).1 :=
  k.toKeptInside.execute adopt
    (k.phases enter extracted failures working send loadedEntities loader complete) s

end

end Kept

namespace MigrationState

/-- Writing a document changes files only. -/
theorem writeArtifact_frame (m : Migration σ) (s : MigrationState σ) (directory name : String)
    (v : Value) : ∃ files, (s.writeArtifact m directory name v).1 = { s with files } := by
  simp only [writeArtifact]
  split
  · exact ⟨s.files, rfl⟩
  · split
    · exact ⟨_, rfl⟩
    · exact ⟨_, rfl⟩

end MigrationState

namespace Migration

variable (m : Migration σ)

theorem saveTransformed_frame (s : MigrationState σ) :
    ∃ files, m.saveTransformed s = { s with files } := by
  simp only [saveTransformed]
  split
  · exact foldl_keeps (R := fun s t : MigrationState σ => ∃ files, t = { s with files })
      (fun s => ⟨s.files, rfl⟩) (fun ⟨_, h⟩ ⟨files, h'⟩ => ⟨files, by rw [h', h]⟩) s.working
      (fun t _ _ => t.writeArtifact_frame m _ _ _) s
  · exact ⟨s.files, rfl⟩

/-- Saving extracted records leaves at most a remark on the step. -/
theorem saveExtracted_step (source : Source) (x : Extraction) (s : MigrationState σ) (step : Step) :
    ∃ warnings, (m.saveExtracted source x s step).2 = { step with warnings } := by
  simp only [saveExtracted]
  split
  · split <;> exact ⟨_, rfl⟩
  · exact ⟨_, rfl⟩

theorem saveReport_frame (s : MigrationState σ) :
    ∃ files reportPath, m.saveReport s = { s with files, reportPath } := by
  have written := s.writeArtifact_frame m "logs" ("migration_report_" ++ m.now.stamp) s.run.toValue
  obtain ⟨files, written⟩ := written
  simp only [saveReport]
  split <;> rename_i h <;> rw [h] at written <;> cases written
  · exact ⟨files, _, rfl⟩
  · exact ⟨files, s.reportPath, rfl⟩

/-- The end of a run takes totals, writes the report and tells an event. -/
theorem conclude_frame (s : MigrationState σ) :
    ∃ files reportPath events,
      m.conclude s = { s with run := s.run.withTotals, files, reportPath, events } := by
  obtain ⟨files, reportPath, saved⟩ := m.saveReport_frame { s with run := s.run.withTotals }
  simp only [conclude]
  rw [saved]
  exact ⟨files, reportPath, _, rfl⟩

/-- Stopping a run changes its account and tells an event at most. -/
theorem stop_frame (s : MigrationState σ) (e : MigrationError) :
    ∃ run events, m.stop s e = { s with run, events } ∧ run.steps = s.run.steps ∧
      run.created = s.run.created ∧
      (run.status = .cancelled ∨ run.status = .failed ∨ run.status = s.run.status) := by
  simp only [stop]
  split
  · obtain ⟨run, changed, account, status⟩ := s.goTo_frame m .cancelled
    exact ⟨run, s.events, changed, account.steps, account.created, status.imp_right .inr⟩
  · obtain ⟨run, changed, account, status⟩ := MigrationState.goTo_frame m
      (({ s with run := s.run.noteError (currentPhase s.run) e.message m.now } :
        MigrationState σ).emit (.error (currentPhase s.run) e.message)) .failed
    exact ⟨run, _, changed, account.steps, account.created, .inr status⟩

/-- Once its work is over, a run changes the rest of its account, its events and its report only. -/
theorem settle_frame (p : Progressed σ) :
    ∃ run events files reportPath,
      m.settle p = { p.1 with run, events, files, reportPath } ∧
      run.steps = p.1.run.steps ∧ run.created = p.1.run.created := by
  obtain ⟨s, _ | ⟨e⟩ | ⟨why⟩⟩ := p
  · obtain ⟨files, reportPath, events, concluded⟩ := m.conclude_frame s
    exact ⟨_, events, files, reportPath, concluded, rfl, rfl⟩
  · obtain ⟨run, _, stopped, steps, created, _⟩ := m.stop_frame s e
    obtain ⟨files, reportPath, events, concluded⟩ := m.conclude_frame (m.stop s e)
    refine ⟨run.withTotals, events, files, reportPath, ?_, steps, created⟩
    rw [settle, concluded, stopped]
  · exact ⟨s.run, s.events, s.files, s.reportPath, rfl, rfl, rfl⟩

theorem run_frame (s : MigrationState σ) :
    ∃ run events files reportPath,
      m.run s = { (m.execute (m.fresh s)).1 with run, events, files, reportPath } ∧
      run.steps = (m.execute (m.fresh s)).1.run.steps ∧
      run.created = (m.execute (m.fresh s)).1.run.created :=
  m.settle_frame (m.execute (m.fresh s))

end Migration

end DataMigration
