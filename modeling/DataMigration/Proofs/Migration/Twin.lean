import DataMigration.Proofs.Migration.Flow
import DataMigration.Proofs.Migration.Unasked

/-!
# Two runs at the same point

What a run does next depends on its status, its failures, its working sets and the target, and on
the records that are kept for its mapping. Two runs that agree on these, and of which nothing is
asked, take the same steps and send the same batches, whatever else tells them apart: the ids of
their steps, the files around them, the records kept for nobody, and all they have told so far.
-/

namespace DataMigration

variable {σ : Type}

/-- The step without its id and its remarks. -/
def Step.account (s : Step) : Step := { s with id := "", warnings := [] }

/-- What decides how a run goes on, and what it comes to. -/
structure Course (σ : Type) where
  status : RunStatus
  pausedFrom : Option RunStatus
  steps : List Step
  created : Dict (List String)
  failures : Nat
  working : List WorkingSet
  target : Target σ

/-- The course of a run so far. -/
def MigrationState.course (s : MigrationState σ) : Course σ where
  status := s.run.status
  pausedFrom := s.run.pausedFrom
  steps := s.run.steps.map Step.account
  created := s.run.created
  failures := s.failures
  working := s.working
  target := s.target

/-- A move that is not part of the course of a run. -/
structure Aside (s t : MigrationState σ) : Prop where
  course : t.course = s.course
  sent : t.sent = s.sent
  running : t.control.signal = .running

/-- Two runs at the same point, which have sent the same batches since they were at others. -/
structure Twin (before before' : List Batch) (s s' : MigrationState σ) : Prop where
  course : s'.course = s.course
  sent : ∃ bs, s.sent = before ++ bs ∧ s'.sent = before' ++ bs
  running : s.control.signal = .running
  running' : s'.control.signal = .running

/-- Two pieces of work that come to related results and stop alike. -/
structure Together {β : Type} (R : β → β → Prop) (p p' : β × Option (Stop MigrationError)) : Prop where
  results : R p.1 p'.1
  stops : p'.2 = p.2

theorem Together.andThen {R : MigrationState σ → MigrationState σ → Prop} {p p' : Progressed σ}
    (h : Together R p p') {f f' : MigrationState σ → Progressed σ}
    (next : ∀ t t', R t t' → Together R (f t) (f' t')) :
    Together R (p.andThen f) (p'.andThen f') := by
  obtain ⟨t, _⟩ := p
  obtain ⟨t', stop⟩ := p'
  obtain ⟨results, rfl : stop = _⟩ := h
  cases stop with
  | none => exact next t t' results
  | some e => exact ⟨results, rfl⟩

/-- Batches that are worked on alike. -/
theorem Together.overBatches {α β : Type} {R : β → β → Prop}
    {work : β → List α → β × Option (Stop MigrationError)}
    (each : ∀ b b' part, R b b' → Together R (work b part) (work b' part))
    (parts : List (List α)) {b b' : β} (start : R b b') :
    Together R (DataMigration.overBatches work parts b)
      (DataMigration.overBatches work parts b') := by
  induction parts generalizing b b' with
  | nil => exact ⟨start, rfl⟩
  | cons part parts ih =>
    have first := each b b' part start
    simp only [DataMigration.overBatches]
    revert first
    generalize work b part = p, work b' part = p'
    obtain ⟨c, _⟩ := p
    obtain ⟨c', stop⟩ := p'
    rintro ⟨results, rfl : stop = _⟩
    cases stop with
    | none => exact ih results
    | some e => exact ⟨results, rfl⟩

namespace Aside

variable {m : Migration σ}

theorem refl {s : MigrationState σ} (running : s.control.signal = .running) : Aside s s :=
  ⟨rfl, rfl, running⟩

theorem kept (unasked : m.Unasked) :
    KeptInside m (fun s t : MigrationState σ => s.control.signal = .running → Aside s t) where
  refl _ running := .refl running
  trans h h' running :=
    have first := h running
    have next := h' first.running
    ⟨next.course.trans first.course, next.sent.trans first.sent, next.running⟩
  emit _ _ running := ⟨rfl, rfl, running⟩
  note s a apart running := by
    refine ⟨?_, ?_, ?_⟩
    · rw [s.note_unasked unasked]
      rfl
    · rw [MigrationState.sent_note, apart]
      exact List.append_nil _
    · rw [s.note_unasked unasked]
      exact running
  checkpoint s running := by
    rw [s.checkpoint_unasked unasked running]
    refine ⟨rfl, ?_, running⟩
    simp [MigrationState.sent, Activity.batch?]
  files _ _ running := ⟨rfl, rfl, running⟩

end Aside

namespace Twin

variable {m : Migration σ} {before before' : List Batch} {s s' t t' : MigrationState σ}

theorem failures (h : Twin before before' s s') : s'.failures = s.failures :=
  congrArg Course.failures h.course

theorem working (h : Twin before before' s s') : s'.working = s.working :=
  congrArg Course.working h.course

theorem target (h : Twin before before' s s') : s'.target = s.target :=
  congrArg Course.target h.course

theorem aside (h : Twin before before' s s') (own : Aside s t) (own' : Aside s' t') :
    Twin before before' t t' where
  course := own'.course.trans (h.course.trans own.course.symm)
  sent := by
    rw [own.sent, own'.sent]
    exact h.sent
  running := own.running
  running' := own'.running

/-- Both runs tell something, whatever it is. -/
theorem emit (h : Twin before before' s s') (e e' : ProgressEvent) :
    Twin before before' (s.emit e) (s'.emit e') :=
  h.aside ⟨rfl, rfl, h.running⟩ ⟨rfl, rfl, h.running'⟩

/-- Both runs begin a step; its id may be another one. -/
theorem newStep (h : Twin before before' s s') (name entity : String) (phase : RunStatus) :
    Twin before before' (s.newStep m name entity phase).1 (s'.newStep m name entity phase).1 ∧
      (s'.newStep m name entity phase).2.account = (s.newStep m name entity phase).2.account :=
  ⟨h.aside ⟨rfl, rfl, h.running⟩ ⟨rfl, rfl, h.running'⟩, rfl⟩

/-- Both runs change their courses in the same way. -/
theorem map (h : Twin before before' s s') (change : Course σ → Course σ)
    (own : t.course = change s.course) (own' : t'.course = change s'.course)
    (sent : t.sent = s.sent) (sent' : t'.sent = s'.sent)
    (control : t.control = s.control) (control' : t'.control = s'.control) :
    Twin before before' t t' where
  course := by rw [own, own', h.course]
  sent := by
    rw [sent, sent']
    exact h.sent
  running := control ▸ h.running
  running' := control' ▸ h.running'

/-- One more record has failed in both runs. -/
theorem spend (h : Twin before before' s s') :
    Twin before before' { s with failures := s.failures + 1 }
      { s' with failures := s'.failures + 1 } :=
  h.map (fun c => { c with failures := c.failures + 1 }) rfl rfl rfl rfl rfl rfl

/-- Both runs end their steps in the same way. -/
theorem finishStep (h : Twin before before' s s') {step step' : Step}
    (same : step'.account = step.account) (stop : Option MigrationError) :
    Twin before before' (s.finishStep m step stop) (s'.finishStep m step' stop) := by
  have closes (s : MigrationState σ) (step : Step) : (s.finishStep m step stop).course =
      { s.course with
        steps := s.course.steps ++ [step.account.closed stop m.now] } := by
    simp only [MigrationState.course, MigrationState.finishStep_steps, List.map_append]
    rfl
  refine h.map (fun c => { c with steps := c.steps ++ [step.account.closed stop m.now] })
    (closes s step) ?_ rfl rfl rfl rfl
  rw [closes s' step', same]

/-- Both runs end their steps in the same way, or leave them open. -/
theorem endStep (h : Twin before before' s s') {step step' : Step}
    (same : step'.account = step.account) (stop : Option (Stop MigrationError)) :
    Twin before before' (s.endStep m step stop) (s'.endStep m step' stop) := by
  obtain _ | e | why := stop
  · exact h.finishStep same none
  · exact h.finishStep same (some e)
  · exact h

/-- Both runs go to the next status, or neither can. -/
theorem goTo (h : Twin before before' s s') (next : RunStatus) :
    Together (Twin before before') (s.goTo m next) (s'.goTo m next) := by
  have status : s'.run.status = s.run.status := congrArg Course.status h.course
  have pausedFrom : s'.run.pausedFrom = s.run.pausedFrom := congrArg Course.pausedFrom h.course
  simp only [MigrationState.goTo, Run.goTo?, status, pausedFrom]
  by_cases may : RunStatus.canGo s.run.pausedFrom s.run.status next = true
  · simp only [if_pos may]
    refine ⟨h.map (fun c => { c with
      status := next
      pausedFrom := if next = .paused then some c.status else none }) rfl ?_ rfl rfl rfl rfl, rfl⟩
    simp only [MigrationState.course, status]
  · simp only [if_neg may]
    exact ⟨h, rfl⟩

section

variable (unasked : m.Unasked)
include unasked

/-- Both runs end a batch, unless too many records have failed. -/
theorem batchEnd (h : Twin before before' s s') (phase : RunStatus) :
    Together (Twin before before')
      ((s.checkBudget m phase).andThen (MigrationState.checkpoint m))
      ((s'.checkBudget m phase).andThen (MigrationState.checkpoint m)) := by
  simp only [MigrationState.checkBudget, h.failures]
  split
  · exact ⟨h, rfl⟩
  · have k := Aside.kept unasked
    refine ⟨h.aside (k.checkpoint s h.running) (k.checkpoint s' h.running'), ?_⟩
    simp only [Progressed.andThen]
    rw [s.checkpoint_unasked unasked h.running, s'.checkpoint_unasked unasked h.running']

/-- Both runs do things that may be watched, other than sending. -/
theorem notes (h : Twin before before' s s') (activities : List Activity)
    (apart : ∀ a ∈ activities, a.batch? = none) :
    Twin before before' (activities.foldl (MigrationState.note m) s)
      (activities.foldl (MigrationState.note m) s') :=
  have k := Aside.kept unasked
  h.aside (k.noteAll s activities apart h.running) (k.noteAll s' activities apart h.running')

end

end Twin

namespace Migration

variable {m : Migration σ} {before before' : List Batch} {s s' : MigrationState σ}

/-- Two runs at the same point of a step. -/
structure Work.Twin (before before' : List Batch) (w w' : Work σ) : Prop where
  state : DataMigration.Twin before before' w.state w'.state
  step : w'.step.account = w.step.account
  records : w'.records = w.records

namespace Work.Twin

variable {w w' : Work σ}

/-- Both runs count a record. -/
theorem count (h : Work.Twin before before' w w') (change : Step → Step)
    (own : ∀ step, (change step).account = change step.account) {t t' : MigrationState σ}
    (state : DataMigration.Twin before before' t t') :
    Work.Twin before before' { state := t, step := change w.step, records := w.records }
      { state := t', step := change w'.step, records := w'.records } where
  state := state
  step := by rw [own, own, h.step]
  records := h.records

/-- Both runs keep a record. -/
theorem keep (h : Work.Twin before before' w w') (r : TargetRecord) :
    Work.Twin before before' (w.keep r) (w'.keep r) where
  state := h.state
  step := h.step
  records := congrArg (· ++ [r]) h.records

theorem report (h : Work.Twin before before' w w') (phase : RunStatus) (total : Nat)
    (verb : String) {f : MigrationState σ → Progressed σ}
    (next : ∀ t t', DataMigration.Twin before before' t t' →
      Together (DataMigration.Twin before before') (f t) (f t')) :
    Together (Work.Twin before before') (w.report phase total verb f)
      (w'.report phase total verb f) := by
  have ends := next _ _ (h.state.emit
    (.ofProgress phase w.step total
      (verb ++ " " ++ natText w.step.processed ++ " of " ++ natText total))
    (.ofProgress phase w'.step total
      (verb ++ " " ++ natText w'.step.processed ++ " of " ++ natText total)))
  exact ⟨⟨ends.results, h.step, h.records⟩, ends.stops⟩

end Work.Twin

/-- Two runs at the same point of the step of an entity. -/
structure Sending.Twin (before before' : List Batch) (w w' : Sending σ) : Prop where
  state : DataMigration.Twin before before' w.state w'.state
  step : w'.step.account = w.step.account

section

variable (unasked : m.Unasked)
include unasked

/-! ## Transformation -/

theorem transformOne_twin (em : EntityMapping) (tools : Toolbox) (source : SourceRecord)
    {w w' : Work σ} (h : Work.Twin before before' w w') :
    Work.Twin before before' (m.transformOne em tools w source)
      (m.transformOne em tools w' source) := by
  have noted := h.state.notes unasked ((em.calls tools [source]).map Activity.operator) (by
    intro a member
    obtain ⟨name, _, rfl⟩ := List.mem_map.1 member
    rfl)
  obtain ⟨r, applied⟩ := em.apply_singleton tools m.now em.target source
  simp only [transformOne, applied]
  cases transformFindings r with
  | nil =>
    have counted := h.count (fun step => { step with
      processed := step.processed + 1, succeeded := step.succeeded + 1 }) (fun _ => rfl) noted
    exact counted.keep r
  | cons f fs =>
    have counted := h.count (fun step => { step with
      processed := step.processed + 1
      failed := step.failed + 1
      errors := step.errors ++ [.ofRecord r.id "Record failed to transform" (f :: fs)] })
      (fun _ => rfl) noted.spend
    exact counted.keep r

theorem transformRecords_twin (em : EntityMapping) (tools : Toolbox) (sources : List SourceRecord)
    {step step' : Step} (h : Twin before before' s s') (same : step'.account = step.account) :
    Together (Work.Twin before before') (m.transformRecords em tools sources s step)
      (m.transformRecords em tools sources s' step') := by
  refine Together.overBatches (fun w w' part twin => ?_) _ ⟨h, same, rfl⟩
  have all : Work.Twin before before' (part.foldl (m.transformOne em tools) w)
      (part.foldl (m.transformOne em tools) w') := by
    induction part generalizing w w' with
    | nil => exact twin
    | cons source part ih => exact ih _ _ (transformOne_twin unasked em tools source twin)
  exact all.report _ _ _ fun t t' ends => ends.batchEnd unasked .transforming

theorem transformStep_twin (tools : Toolbox) (em : EntityMapping)
    (h : Twin before before' s s')
    (same : s'.extractedRecords em.source.service em.source.entity =
      s.extractedRecords em.source.service em.source.entity) :
    Together (Twin before before') (m.transformStep tools em s) (m.transformStep tools em s') := by
  let name := "Transform " ++ em.source.entity ++ " to " ++ em.target.entity
  let p := s.newStep m name em.target.entity .transforming
  let p' := s'.newStep m name em.target.entity .transforming
  obtain ⟨opened, begun⟩ : Twin before before' p.1 p'.1 ∧ p'.2.account = p.2.account :=
    h.newStep name em.target.entity .transforming
  by_cases none : s.extractedRecords em.source.service em.source.entity = []
  · rw [m.transformStep_of_nil tools none, m.transformStep_of_nil tools (same.trans none)]
    exact ⟨opened.finishStep (by rfl) _, rfl⟩
  · have some : s'.extractedRecords em.source.service em.source.entity ≠ [] := same ▸ none
    have works := transformRecords_twin unasked em tools
      (s.extractedRecords em.source.service em.source.entity) opened begun
    rw [m.transformStep_of_ne_nil tools none, m.transformStep_of_ne_nil tools some, same]
    simp only
    revert works
    generalize m.transformRecords em tools _ p.1 p.2 = q,
      m.transformRecords em tools _ p'.1 p'.2 = q'
    obtain ⟨w, _⟩ := q
    obtain ⟨w', stop⟩ := q'
    rintro ⟨work, rfl : stop = _⟩
    have records : w'.records = w.records := work.records
    let fill (working : List WorkingSet) : List WorkingSet :=
      if Stop.isOver stop then addRecords em.target w.records working else working
    have filled : Twin before before' { w.state with working := fill w.state.working }
        { w'.state with working := fill w'.state.working } :=
      work.state.map (fun c => { c with working := fill c.working }) rfl rfl rfl rfl rfl rfl
    rw [records]
    exact ⟨filled.endStep work.step _, rfl⟩

/-- Two transformations of the same records go alike. -/
theorem transformAll_twin (tools : Toolbox) (ems : List EntityMapping)
    (h : Twin before before' s s')
    (same : ∀ em ∈ ems, s'.extractedRecords em.source.service em.source.entity =
      s.extractedRecords em.source.service em.source.entity) :
    Together (Twin before before') (m.transformAll tools ems s) (m.transformAll tools ems s') := by
  induction ems generalizing s s' with
  | nil => exact ⟨h, rfl⟩
  | cons em rest ih =>
    have first := transformStep_twin unasked tools em h (same em List.mem_cons_self)
    have kept (s : MigrationState σ) : (m.transformStep tools em s).1.extracted = s.extracted :=
      (Kept.extracted m).transformStep (fun _ _ => rfl) (fun _ _ => rfl) tools em s
    have still (service entity : String) (s : MigrationState σ) :
        (m.transformStep tools em s).1.extractedRecords service entity =
          s.extractedRecords service entity := by
      rw [MigrationState.extractedRecords, kept]
      rfl
    -- the step leaves the records of the other mappings as they are
    have others := fun em' member => same em' (List.mem_cons_of_mem em member)
    simp only [← still _ _ s, ← still _ _ s'] at others
    simp only [transformAll]
    revert first others
    generalize m.transformStep tools em s = p, m.transformStep tools em s' = p'
    obtain ⟨t, _⟩ := p
    obtain ⟨t', stop⟩ := p'
    rintro ⟨twin, rfl : stop = _⟩ others
    cases stop with
    | none => exact ih twin others
    | some e => exact ⟨twin, rfl⟩

theorem runTransformation_twin (mapping : Mapping) (h : Twin before before' s s')
    (same : ∀ em ∈ mapping.entities, s'.extractedRecords em.source.service em.source.entity =
      s.extractedRecords em.source.service em.source.entity) :
    Together (Twin before before') (m.runTransformation mapping s)
      (m.runTransformation mapping s') :=
  (transformAll_twin unasked _ mapping.entities h same).andThen fun t t' twin =>
    have k := Aside.kept unasked
    ⟨twin.aside (k.saveTransformed t twin.running) (k.saveTransformed t' twin.running'), rfl⟩

/-! ## Validation -/

theorem validateOne_twin (schema : Option EntitySchema) (r : TargetRecord) {w w' : Work σ}
    (h : Work.Twin before before' w w') :
    Work.Twin before before' (m.validateOne schema w r) (m.validateOne schema w' r) := by
  have noted := h.state.notes unasked (m.ruleCalls schema r) (by
    intro a member
    cases schema with
    | none => cases member
    | some schema =>
      obtain ⟨name, _, rfl⟩ := List.mem_map.1 member
      rfl)
  simp only [validateOne]
  split
  · have counted := h.count (fun step => { step with
      processed := step.processed + 1, succeeded := step.succeeded + 1 }) (fun _ => rfl) noted
    exact counted.keep { m.validated schema r with status := .validated }
  · exact h.count (fun step => { step with
      processed := step.processed + 1
      failed := step.failed + 1
      errors := step.errors ++ [.ofRecord (m.validated schema r).id "Record failed validation"
        (m.validated schema r).findings] }) (fun _ => rfl) noted

theorem validateRecords_twin (schema : Option EntitySchema) (records : List TargetRecord)
    {step step' : Step} (h : Twin before before' s s') (same : step'.account = step.account) :
    Together (Work.Twin before before') (m.validateRecords schema records s step)
      (m.validateRecords schema records s' step') := by
  refine Together.overBatches (fun w w' part twin => ?_) _ ⟨h, same, rfl⟩
  have all : Work.Twin before before' (part.foldl (m.validateOne schema) w)
      (part.foldl (m.validateOne schema) w') := by
    induction part generalizing w w' with
    | nil => exact twin
    | cons r part ih => exact ih _ _ (validateOne_twin unasked schema r twin)
  refine all.report _ _ _ fun t t' ends => ?_
  have k := Aside.kept unasked
  refine ⟨ends.aside (k.checkpoint t ends.running) (k.checkpoint t' ends.running'), ?_⟩
  rw [t.checkpoint_unasked unasked ends.running, t'.checkpoint_unasked unasked ends.running']

/-- Both runs keep the same records of a working set. -/
theorem validateStep_twin (set : WorkingSet) (h : Twin before before' s s') :
    (m.validateStep set s').1 = (m.validateStep set s).1 ∧
      Together (Twin before before') (m.validateStep set s).2 (m.validateStep set s').2 := by
  let schema := m.registry.entitySchema? set.target
  let opened (s : MigrationState σ) : MigrationState σ :=
    (s.newStep m ("Validate " ++ set.target.entity) set.target.entity .validating).1
  have same : (m.validationStep set s').account = (m.validationStep set s).account := by
    simp only [validationStep]
    split <;> rfl
  have begins : Twin before before' (opened s) (opened s') :=
    (h.newStep ("Validate " ++ set.target.entity) set.target.entity .validating).1
  have works := validateRecords_twin unasked schema set.records begins same
  rw [validateStep_eq, validateStep_eq]
  revert works
  generalize m.validateRecords schema set.records (opened s) (m.validationStep set s) = q,
    m.validateRecords schema set.records (opened s') (m.validationStep set s') = q'
  obtain ⟨w, _⟩ := q
  obtain ⟨w', stop⟩ := q'
  rintro ⟨work, rfl : stop = _⟩
  let kept (records : List TargetRecord) : WorkingSet :=
    { set with records := if Stop.isOver stop then records else [] }
  exact ⟨congrArg kept work.records, work.state.endStep work.step stop, rfl⟩

theorem validateAll_twin (sets : List WorkingSet) (h : Twin before before' s s') :
    (m.validateAll sets s').1 = (m.validateAll sets s).1 ∧
      Together (Twin before before') (m.validateAll sets s).2 (m.validateAll sets s').2 := by
  induction sets generalizing s s' with
  | nil => exact ⟨rfl, h, rfl⟩
  | cons set rest ih =>
    have first := validateStep_twin unasked set h
    simp only [validateAll]
    revert first
    generalize m.validateStep set s = p, m.validateStep set s' = p'
    obtain ⟨_, t, _⟩ := p
    obtain ⟨thinned, t', stop⟩ := p'
    rintro ⟨rfl : thinned = _, twin, rfl : stop = _⟩
    cases stop with
    | none =>
      obtain ⟨others, ends⟩ := ih twin
      exact ⟨congrArg (thinned :: ·) others, ends⟩
    | some e => exact ⟨rfl, twin, rfl⟩

theorem runValidation_twin (h : Twin before before' s s') :
    Together (Twin before before') (m.runValidation s) (m.runValidation s') := by
  obtain ⟨sets, twin, stops⟩ := validateAll_twin unasked s.working h
  simp only [runValidation, h.working]
  refine ⟨?_, stops⟩
  exact twin.map (fun c => { c with working := (m.validateAll s.working s).1 }) rfl
    (by rw [← sets]; rfl) rfl rfl rfl rfl

/-! ## Loading -/

/-- Both runs send a batch, and the same comes of it. -/
theorem send_twin (loader : Loader (Target σ)) (batch : Batch)
    (h : Twin before before' s s') :
    Twin before before' (m.send loader batch s).1 (m.send loader batch s').1 ∧
      (m.send loader batch s').2 = (m.send loader batch s).2 := by
  let change (c : Course σ) : Course σ :=
    let p := loader.loadBatch batch.records batch.entity batch.upsert c.target
    { c with
      target := p.2
      failures := c.failures + p.1.failed
      created := Dict.upsert c.created batch.entity [] (· ++ p.1.created) }
  have own (s : MigrationState σ) : (m.send loader batch s).1.course = change s.course := by
    simp only [send, s.note_unasked unasked]
    rfl
  have control (s : MigrationState σ) : (m.send loader batch s).1.control = s.control := by
    simp only [send, s.note_unasked unasked]
  have sends (s : MigrationState σ) : (m.send loader batch s).1.sent = s.sent ++ [batch] :=
    s.sent_note m (.load batch)
  have result (s : MigrationState σ) : (m.send loader batch s).2 =
      (loader.loadBatch batch.records batch.entity batch.upsert s.target).1 := by
    simp only [send, s.note_unasked unasked]
  refine ⟨⟨by rw [own, own, h.course], ?_, control s ▸ h.running, control s' ▸ h.running'⟩, ?_⟩
  · obtain ⟨bs, sent, sent'⟩ := h.sent
    exact ⟨bs ++ [batch], by rw [sends, sent, List.append_assoc],
      by rw [sends, sent', List.append_assoc]⟩
  · rw [result, result, h.target]

theorem loadBatch_twin (loader : Loader (Target σ)) (entity : String) (total count : Nat)
    (part : List TargetRecord) {w w' : Sending σ} (h : Sending.Twin before before' w w') :
    Together (Sending.Twin before before') (m.loadBatch loader entity total count w part)
      (m.loadBatch loader entity total count w' part) := by
  have sends := send_twin unasked loader ⟨entity, part, m.config.upsert⟩ h.state
  simp only [loadBatch]
  revert sends
  generalize m.send loader _ w.state = p, m.send loader _ w'.state = p'
  obtain ⟨t, _⟩ := p
  obtain ⟨t', r⟩ := p'
  rintro ⟨twin, rfl : r = _⟩
  have counts (step : Step) : (countLoad r step).account = countLoad r step.account := rfl
  have ends := fun e e' => (twin.emit e e').batchEnd unasked (m := m) .loading
  exact ⟨⟨(ends _ _).results, by rw [counts, counts, h.step]⟩, (ends _ _).stops⟩

theorem loadRecords_twin (loader : Loader (Target σ)) (entity : String)
    (records : List TargetRecord) {step step' : Step} (h : Twin before before' s s')
    (same : step'.account = step.account) :
    Together (Sending.Twin before before') (m.loadRecords loader entity records s step)
      (m.loadRecords loader entity records s' step') :=
  Together.overBatches (fun _ _ part twin => loadBatch_twin unasked loader entity _ _ part twin) _
    ⟨h, same⟩

theorem loadStep_twin (loader : Loader (Target σ)) (entity : String)
    (h : Twin before before' s s') :
    Together (Twin before before') (m.loadStep loader entity s) (m.loadStep loader entity s') := by
  let begun (s : MigrationState σ) : MigrationState σ × Step := m.beginLoad entity s
  have all : m.recordsToLoad s'.working entity = m.recordsToLoad s.working entity :=
    congrArg (m.recordsToLoad · entity) h.working
  have same : (begun s').2.account = (begun s).2.account := by
    simp only [begun, beginLoad, h.working]
    rfl
  have begins : Twin before before' (begun s).1 (begun s').1 :=
    h.aside ⟨rfl, rfl, h.running⟩ ⟨rfl, rfl, h.running'⟩
  have works := loadRecords_twin unasked loader entity (m.recordsToLoad s.working entity) begins
    same
  rw [loadStep_eq, loadStep_eq, all]
  revert works
  generalize m.loadRecords loader entity _ (begun s).1 (begun s).2 = q,
    m.loadRecords loader entity _ (begun s').1 (begun s').2 = q'
  obtain ⟨w, _⟩ := q
  obtain ⟨w', stop⟩ := q'
  rintro ⟨work, rfl : stop = _⟩
  exact ⟨work.state.endStep work.step _, rfl⟩

theorem loadAll_twin (loader : Loader (Target σ)) (entities : List String)
    (h : Twin before before' s s') :
    Together (Twin before before') (m.loadAll loader entities s)
      (m.loadAll loader entities s') := by
  induction entities generalizing s s' with
  | nil => exact ⟨h, rfl⟩
  | cons entity rest ih =>
    exact (loadStep_twin unasked loader entity h).andThen fun t t' twin => ih twin

theorem runLoading_twin (mapping : Mapping) (h : Twin before before' s s') :
    Together (Twin before before') (m.runLoading mapping s) (m.runLoading mapping s') := by
  have entities : loadEntities mapping s'.working = loadEntities mapping s.working := by
    rw [h.working]
  simp only [runLoading]
  cases m.connectors.loader m.config with
  | error e => exact ⟨h, rfl⟩
  | ok loader =>
    simp only [entities]
    split
    · exact loadAll_twin unasked loader _ (h.map
        (fun c => { c with target := { c.target with memory := [] } }) rfl rfl rfl rfl rfl rfl)
    · exact ⟨h, rfl⟩

/-! ## Extraction -/

theorem extractStep_twin (source : Source) (x : Extracted) (h : Twin before before' s s') :
    Together (Twin before before') (m.extractStep source x s) (m.extractStep source x s') := by
  have k := Aside.kept unasked
  let opened (s : MigrationState σ) := s.newStep m
    ("Extract " ++ source.entity ++ " from " ++ source.service) source.entity .extracting
  obtain ⟨begun, alike⟩ : Twin before before' (opened s).1 (opened s').1 ∧
      (opened s').2.account = (opened s).2.account := h.newStep _ source.entity .extracting
  have goesOn {t t' : MigrationState σ} (twin : Twin before before' t t') :
      Together (Twin before before') (t.checkpoint m) (t'.checkpoint m) := by
    refine ⟨twin.aside (k.checkpoint t twin.running) (k.checkpoint t' twin.running'), ?_⟩
    rw [t.checkpoint_unasked unasked twin.running, t'.checkpoint_unasked unasked twin.running']
  cases x with
  | ok x =>
    have absorbs {t : MigrationState σ} (step : Step) (running : t.control.signal = .running) :
        Aside t (m.absorb source x t step).1 :=
      k.absorb (fun _ _ running => ⟨rfl, rfl, running⟩) source x t step running
    have account (t : MigrationState σ) (step : Step) :
        (m.absorb source x t step).2.account = (countExtraction x step).account := by
      obtain ⟨warnings, counted⟩ := m.absorb_step source x t step
      rw [counted]
      rfl
    have taken := begun.aside (absorbs (opened s).2 begun.running)
      (absorbs (opened s').2 begun.running')
    have same : (m.absorb source x (opened s').1 (opened s').2).2.account =
        (m.absorb source x (opened s).1 (opened s).2).2.account := by
      rw [account, account]
      rfl
    exact goesOn (taken.finishStep same none)
  | error e =>
    have ended := begun.finishStep (m := m) alike (some (.extraction e))
    simp only [extractStep]
    split
    · exact goesOn ended
    · exact ⟨ended, rfl⟩

/-- What the first source gives is taken over before the others are looked at. -/
theorem extractAll_cons (source : Source) (rest : List Source) (ahead : List Extracted)
    (running : s.control.signal = .running) :
    ∃ t x left, Aside s t ∧
      m.extractAll (source :: rest) ahead s =
        (m.extractStep source x t).andThen (m.extractAll rest left) ∧
      m.yields (source :: rest) ahead s =
        (source, x) :: (m.extractStep source x t).further (m.yields rest left) := by
  cases ahead with
  | nil => exact ⟨_, _, _, (Aside.kept unasked).readAhead s source rest running, rfl, rfl⟩
  | cons x left => exact ⟨s, x, left, .refl running, rfl, rfl⟩

/-- Two extractions go alike if the sources give them the same. -/
theorem extractAll_twin (sources : List Source) (ahead ahead' : List Extracted)
    (h : Twin before before' s s')
    (same : m.yields sources ahead' s' = m.yields sources ahead s) :
    Together (Twin before before') (m.extractAll sources ahead s)
      (m.extractAll sources ahead' s') := by
  induction sources generalizing ahead ahead' s s' with
  | nil => exact ⟨h, rfl⟩
  | cons source rest ih =>
    obtain ⟨t, x, left, own, all, gives⟩ :=
      extractAll_cons unasked source rest ahead h.running
    obtain ⟨t', x', left', own', all', gives'⟩ :=
      extractAll_cons unasked source rest ahead' h.running'
    rw [gives, gives'] at same
    -- what the first source gave is the same, so the steps are twins and the others can follow
    obtain ⟨first, others⟩ := List.cons.inj same
    obtain rfl : x' = x := congrArg Prod.snd first
    have taken := extractStep_twin unasked source x' (h.aside own own')
    rw [all, all']
    revert taken others
    generalize m.extractStep source x' t = p, m.extractStep source x' t' = p'
    obtain ⟨u, _⟩ := p
    obtain ⟨u', stop⟩ := p'
    rintro others ⟨twin, rfl : stop = _⟩
    cases stop with
    | none => exact ih left left' twin others
    | some e => exact ⟨twin, rfl⟩

end

end Migration

end DataMigration
