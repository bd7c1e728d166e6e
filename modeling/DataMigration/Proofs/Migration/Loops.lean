import DataMigration.Proofs.Migration.Delivery
import DataMigration.Proofs.Migration.Records
import DataMigration.Proofs.Migration.Unasked

/-!
# Batch loops to which no requests come

When nothing is asked of a run, only the limit on failed records ends the work on its batches early.
What such work leaves behind is then known in full, apart from what only tells of the way to it: the
events, the activities and the checkpoints.
-/

namespace DataMigration

variable {σ : Type} {m : Migration σ}

/-- The state without what only tells of the way to it, and without the loader at hand. -/
def MigrationState.bare (s : MigrationState σ) : MigrationState σ :=
  { s with events := [], activities := [], control := {}, loader := none }

/-- Work that neither looks at what `bare` leaves out nor brings it in. -/
theorem MigrationState.bare_congr {s t : MigrationState σ}
    (f : MigrationState σ → MigrationState σ) (own : ∀ s, (f s).bare = (f s.bare).bare)
    (same : s.bare = t.bare) : (f s).bare = (f t).bare := by
  rw [own, same, ← own]

/-- So many more records have failed, and nothing else has changed. -/
structure Charged (n : Nat) (s t : MigrationState σ) : Prop where
  bare : t.bare = { s.bare with failures := s.failures + n }
  running : t.control.signal = .running

/-- The target, the failures and the created ids are others perhaps, and nothing else is. -/
structure Delivered (s t : MigrationState σ) : Prop where
  bare : t.bare = { s.bare with
    target := t.target, failures := t.failures, run := { s.run with created := t.run.created } }
  running : t.control.signal = .running

namespace Charged

variable {n k : Nat} {s t u : MigrationState σ}

theorem refl (running : s.control.signal = .running) : Charged 0 s s := ⟨rfl, running⟩

theorem failures (h : Charged n s t) : t.failures = s.failures + n :=
  congrArg MigrationState.failures h.bare

theorem trans (h : Charged n s t) (h' : Charged k t u) : Charged (n + k) s u := by
  refine ⟨?_, h'.running⟩
  rw [h'.bare, h.bare, h.failures, Nat.add_assoc]

theorem emit (running : s.control.signal = .running) (e : ProgressEvent) :
    Charged 0 s (s.emit e) := ⟨rfl, running⟩

theorem spend (running : s.control.signal = .running) :
    Charged 1 s { s with failures := s.failures + 1 } := ⟨rfl, running⟩

theorem note (unasked : m.Unasked) (running : s.control.signal = .running) (a : Activity) :
    Charged 0 s (s.note m a) := by
  rw [s.note_unasked unasked]
  exact ⟨rfl, running⟩

theorem notes (unasked : m.Unasked) (activities : List Activity)
    (running : s.control.signal = .running) :
    Charged 0 s (activities.foldl (MigrationState.note m) s) := by
  induction activities generalizing s with
  | nil => exact .refl running
  | cons a rest ih =>
    have first := note unasked running a
    exact first.trans (ih first.running)

theorem checkpoint (unasked : m.Unasked) (running : s.control.signal = .running) :
    Charged 0 s (s.checkpoint m).1 := by
  rw [s.checkpoint_unasked unasked running]
  exact ⟨rfl, running⟩

/-- What one element costs, all of them cost together. -/
theorem foldl {α : Type} {f : Migration.Work σ → α → Migration.Work σ} {fails : α → Bool}
    (one : ∀ w x, w.state.control.signal = .running →
      Charged ([x].countP fails) w.state (f w x).state) (xs : List α) (w : Migration.Work σ)
    (running : w.state.control.signal = .running) :
    Charged (xs.countP fails) w.state (xs.foldl f w).state := by
  induction xs generalizing w with
  | nil => exact .refl running
  | cons x xs ih =>
    have first := one w x running
    have all := first.trans (ih (f w x) first.running)
    rw [← List.countP_append] at all
    exact all

end Charged

namespace Delivered

variable {s t u : MigrationState σ}

theorem refl (running : s.control.signal = .running) : Delivered s s := ⟨rfl, running⟩

theorem trans (h : Delivered s t) (h' : Delivered t u) : Delivered s u := by
  refine ⟨?_, h'.running⟩
  have run : t.run = { s.run with created := t.run.created } :=
    (congrArg MigrationState.run h.bare :)
  rw [h'.bare, h.bare, run]

theorem of_charged {n : Nat} (h : Charged n s t) : Delivered s t := by
  have target : t.target = s.target := (congrArg MigrationState.target h.bare :)
  have run : t.run = s.run := (congrArg MigrationState.run h.bare :)
  refine ⟨?_, h.running⟩
  rw [h.bare, h.failures, target, run]
  rfl

theorem send (unasked : m.Unasked) (loader : Loader (Target σ)) (batch : Batch)
    (running : s.control.signal = .running) : Delivered s (m.send loader batch s).1 := by
  simp only [Migration.send, s.note_unasked unasked]
  exact ⟨rfl, running⟩

end Delivered

namespace Migration

variable (unasked : m.Unasked)
include unasked

/-- The look at the end of a batch stops when too many records have failed. -/
theorem batchEnd_unasked (phase : RunStatus) {s : MigrationState σ}
    (running : s.control.signal = .running) :
    let p := (s.checkBudget m phase).andThen (MigrationState.checkpoint m)
    Charged 0 s p.1 ∧ p.2 = overspent phase m.config.maxErrors p.1.failures := by
  simp only [MigrationState.checkBudget]
  split
  · rename_i beyond
    exact ⟨.refl running, (if_pos beyond).symm⟩
  · rename_i within
    have charged : Charged 0 s (s.checkpoint m).1 := .checkpoint unasked running
    refine ⟨charged, ?_⟩
    have same : (s.checkpoint m).1.failures = s.failures := charged.failures
    simp only [Progressed.andThen, same, overspent, if_neg within]
    rw [s.checkpoint_unasked unasked running]

/-! ## Transformation -/

section

variable (em : EntityMapping) (tools : Toolbox)

omit unasked in
/-- The number of source records that cannot be transformed. -/
def transformFailures (m : Migration σ) (em : EntityMapping) (tools : Toolbox)
    (sources : List SourceRecord) : Nat :=
  sources.countP fun source => (m.transformProblem? em tools source).isSome

theorem transformOne_charged (w : Work σ) (source : SourceRecord)
    (running : w.state.control.signal = .running) :
    Charged (m.transformFailures em tools [source]) w.state
      (m.transformOne em tools w source).state := by
  have noted : Charged 0 w.state _ := .notes unasked
    ((em.calls tools [source]).map Activity.operator) running
  obtain ⟨r, applied⟩ := em.apply_singleton tools m.now em.target source
  simp only [transformOne, applied]
  cases findings : transformFindings r with
  | nil =>
    have fine : m.transformFailures em tools [source] = 0 := by
      simp [transformFailures, transformProblem?, applied, findings]
    rw [fine]
    exact noted
  | cons f fs =>
    have failed : m.transformFailures em tools [source] = 1 := by
      simp [transformFailures, transformProblem?, applied, findings]
    rw [failed]
    exact noted.trans (.spend noted.running)

theorem transformBatch_charged (total : Nat) (w : Work σ) (batch : List SourceRecord)
    (running : w.state.control.signal = .running) :
    let p := m.transformBatch em tools total w batch
    Charged (m.transformFailures em tools batch) w.state p.1.state ∧
      p.2 = overspent .transforming m.config.maxErrors p.1.state.failures := by
  have each : Charged (m.transformFailures em tools batch) w.state _ :=
    .foldl (transformOne_charged unasked em tools) batch w running
  have told e := each.trans (.emit each.running e)
  have ends e := batchEnd_unasked unasked .transforming (told e).running
  exact ⟨(told _).trans (ends _).1, (ends _).2⟩

omit unasked in
/-- The records of batches are transformed, and besides that only their failures are counted. -/
structure Transforms (m : Migration σ) (em : EntityMapping) (tools : Toolbox)
    (done : List (List SourceRecord)) (v w : Work σ) : Prop where
  handled : Work.Handles (m.transformProblem? em tools) (m.transformed em tools) done.flatten v w
  charged : Charged (m.transformFailures em tools done.flatten) v.state w.state

omit unasked in
theorem transformFailures_append (m : Migration σ) (em : EntityMapping) (tools : Toolbox)
    (xs ys : List SourceRecord) :
    m.transformFailures em tools (xs ++ ys) =
      m.transformFailures em tools xs + m.transformFailures em tools ys := List.countP_append

omit unasked in
theorem Transforms.cons {em : EntityMapping} {tools : Toolbox} {x : List SourceRecord}
    {xs : List (List SourceRecord)} {u v w : Work σ} (h : m.Transforms em tools [x] u v)
    (h' : m.Transforms em tools xs v w) : m.Transforms em tools (x :: xs) u w := by
  have handled := h.handled.append h'.handled
  have charged := h.charged.trans h'.charged
  rw [← m.transformFailures_append] at charged
  rw [List.flatten_singleton] at handled charged
  exact ⟨handled, charged⟩

theorem transformBatch_transforms (total : Nat) (w : Work σ) (batch : List SourceRecord)
    (running : w.state.control.signal = .running) :
    let p := m.transformBatch em tools total w batch
    m.Transforms em tools [batch] w p.1 ∧
      p.2 = overspent .transforming m.config.maxErrors p.1.state.failures := by
  obtain ⟨charged, stop⟩ := transformBatch_charged unasked em tools total w batch running
  have handled := Work.Handles.foldl (m.transformOne_handles em tools) batch w
  refine ⟨⟨?_, ?_⟩, stop⟩
  · rw [List.flatten_singleton]
    exact handled.report _ _ _ _
  · rw [List.flatten_singleton]
    exact charged

theorem transformBatch_metered (total : Nat) :
    MeteredWork (m.transformBatch em tools total) m.config.maxErrors .transforming
      (fun w => w.state.control.signal = .running) (m.Transforms em tools)
      (fun w => w.state.failures)
      (fun w ds => w.state.failures + m.transformFailures em tools ds.flatten) where
  start w running := ⟨.nil w, .refl running⟩
  ends done := done.charged.running
  next first rest := first.cons rest
  nothing _ := rfl
  more first ds := by
    have spent := first.charged.failures
    rw [List.flatten_singleton] at spent
    rw [spent, List.flatten_cons, m.transformFailures_append, Nat.add_assoc]
  each w batch running := transformBatch_transforms unasked em tools total w batch running

/-- The records are transformed batch by batch, until too many have failed. -/
theorem transformRecords_metered (sources : List SourceRecord) {s : MigrationState σ} (step : Step)
    (running : s.control.signal = .running) (within : s.failures ≤ m.config.maxErrors) :
    let p := m.transformRecords em tools sources s step
    ∃ done, Work.Handles (m.transformProblem? em tools) (m.transformed em tools) done.flatten
        { state := s, step } p.1 ∧
      Charged (m.transformFailures em tools done.flatten) s p.1.state ∧
      Metered m.config.maxErrors (fun _ => .transforming)
        (fun ds => s.failures + m.transformFailures em tools ds.flatten)
        (batches m.config.batchSize sources) done p.2 := by
  obtain ⟨done, ⟨handled, charged⟩, metered⟩ :=
    (transformBatch_metered unasked em tools sources.length).metered
      (batches m.config.batchSize sources) { state := s, step } running within
  exact ⟨done, handled, charged, metered⟩

end

/-! ## Validation -/

section

variable (schema : Option EntitySchema)

theorem validateOne_charged {s : MigrationState σ} (w : Work σ) (r : TargetRecord)
    (charged : Charged 0 s w.state) : Charged 0 s (m.validateOne schema w r).state := by
  have noted := charged.trans (.notes unasked (m.ruleCalls schema r) charged.running)
  simp only [validateOne]
  split <;> exact noted

theorem validateBatch_charged {s : MigrationState σ} (total : Nat) (w : Work σ)
    (batch : List TargetRecord) (charged : Charged 0 s w.state) :
    let p := m.validateBatch schema total w batch
    Charged 0 s p.1.state ∧ p.2 = none := by
  have each : Charged 0 s (batch.foldl (m.validateOne schema) w).state :=
    List.foldlRecOn batch (m.validateOne schema) charged fun w own r _ =>
      validateOne_charged unasked schema w r own
  have told e := each.trans (.emit each.running e)
  exact ⟨(told _).trans (.checkpoint unasked (told _).running),
    congrArg Prod.snd (MigrationState.checkpoint_unasked unasked (told _).running)⟩

/-- The records are validated whatever becomes of them. -/
theorem validateRecords_unasked (records : List TargetRecord) {s : MigrationState σ} (step : Step)
    (running : s.control.signal = .running) :
    let p := m.validateRecords schema records s step
    Work.Handles (m.validationProblem? schema) (m.accepted schema) records { state := s, step }
        p.1 ∧
      Charged 0 s p.1.state ∧ p.2 = none := by
  obtain ⟨charged, through⟩ := overBatches_through (m.validateBatch schema records.length)
    (fun w => Charged 0 s w.state) (validateBatch_charged unasked schema records.length)
    (batches m.config.batchSize records) { state := s, step } (.refl running)
  obtain ⟨done, rest, whole, handled, all⟩ := m.validateRecords_handles schema records s step
  rw [all through, List.append_nil] at whole
  subst whole
  exact ⟨handled, charged, through⟩

omit unasked in
/-- What validation leaves of a working set. -/
def thinned (m : Migration σ) (set : WorkingSet) : WorkingSet :=
  { set with records := set.records.flatMap (m.accepted (m.registry.entitySchema? set.target)) }

/-- A working set is validated in one go. -/
theorem validateStep_unasked (set : WorkingSet) {s : MigrationState σ}
    (running : s.control.signal = .running) :
    let schema := m.registry.entitySchema? set.target
    let opened := (s.newStep m ("Validate " ++ set.target.entity) set.target.entity .validating).1
    let p := m.validateStep set s
    p.1 = m.thinned set ∧ p.2.2 = none ∧ p.2.1.control.signal = .running ∧
      p.2.1.bare = (opened.finishStep m
        ((m.validationStep set s).countAll (set.records.map (m.validationProblem? schema)))
        none).bare := by
  intro schema opened p
  obtain ⟨handled, charged, through⟩ := validateRecords_unasked unasked schema set.records
    (m.validationStep set s) (show opened.control.signal = .running from running)
  simp only [p]
  rw [validateStep_eq]
  revert handled charged through
  generalize m.validateRecords schema set.records opened (m.validationStep set s) = q
  obtain ⟨w, stop⟩ := q
  rintro handled charged rfl
  refine ⟨congrArg (WorkingSet.mk set.target) handled.records, rfl, charged.running, ?_⟩
  rw [← handled.step]
  exact MigrationState.bare_congr (fun s => s.finishStep m w.step none) (fun _ => rfl) charged.bare

end

/-! ## Loading -/

section

variable {loader : Loader (Target σ)} (entity : String)

theorem loadBatch_delivers (total count : Nat) (w : Sending σ) (part : List TargetRecord)
    (running : w.state.control.signal = .running) :
    let p := m.loadBatch loader entity total count w part
    Delivered w.state p.1.state ∧
      p.2 = overspent .loading m.config.maxErrors p.1.state.failures := by
  have sent := Delivered.send unasked loader ⟨entity, part, m.config.upsert⟩ running
  have told e := sent.trans (.of_charged (.emit sent.running e))
  have ends e := batchEnd_unasked unasked .loading (told e).running
  exact ⟨(told _).trans (.of_charged (ends _).1), (ends _).2⟩

omit unasked in
/-- The records of batches are loaded as they are sent, and nothing else comes of that. -/
structure Ships (m : Migration σ) (loader : Loader (Target σ)) (entity : String)
    (done : List (List TargetRecord)) (v w : Sending σ) : Prop where
  loads : Sending.Loads loader entity m.config.upsert done.flatten v w
  sends : Sends loader (done.map fun part => ⟨entity, part, m.config.upsert⟩) v.state w.state
  delivered : Delivered v.state w.state

omit unasked in
theorem Ships.cons {entity : String} {x : List TargetRecord} {xs : List (List TargetRecord)}
    {u v w : Sending σ} (h : m.Ships loader entity [x] u v) (h' : m.Ships loader entity xs v w) :
    m.Ships loader entity (x :: xs) u w := by
  have loads := h.loads.append h'.loads
  rw [List.flatten_singleton] at loads
  exact ⟨loads, h.sends.trans h'.sends, h.delivered.trans h'.delivered⟩

theorem loadBatch_metered (sequential : loader.Sequential) (total count : Nat) :
    MeteredWork (m.loadBatch loader entity total count) m.config.maxErrors .loading
      (fun w => w.state.control.signal = .running) (m.Ships loader entity)
      (fun w => w.state.failures)
      (fun w ds => w.state.failures +
        (loader.loadEach ds.flatten entity m.config.upsert w.state.target).1.failed) where
  start w running := ⟨.nil w, .of_untouched (.refl w.state), .refl running⟩
  ends done := done.delivered.running
  next first rest := first.cons rest
  nothing _ := rfl
  more first ds := by
    have loads := first.loads
    rw [List.flatten_singleton] at loads
    rw [loads.failures, loads.target, List.flatten_cons, loader.loadEach_append, Nat.add_assoc]
    rfl
  each w part running := by
    obtain ⟨delivered, stop⟩ := loadBatch_delivers unasked entity total count w part running
    refine ⟨⟨?_, m.loadBatch_sends loader entity _ _ w part, delivered⟩, stop⟩
    rw [List.flatten_singleton]
    exact m.loadBatch_loads sequential entity _ _ w part

/-- Records of an entity are sent batch by batch, until too many have failed. -/
theorem loadRecords_metered (sequential : loader.Sequential) (records : List TargetRecord)
    {s : MigrationState σ} (step : Step) (running : s.control.signal = .running)
    (within : s.failures ≤ m.config.maxErrors) :
    let p := m.loadRecords loader entity records s step
    ∃ done, Sending.Loads loader entity m.config.upsert done.flatten { state := s, step } p.1 ∧
      Sends loader (done.map fun part => ⟨entity, part, m.config.upsert⟩) s p.1.state ∧
      Delivered s p.1.state ∧
      Metered m.config.maxErrors (fun _ => .loading)
        (fun ds => s.failures +
          (loader.loadEach ds.flatten entity m.config.upsert s.target).1.failed)
        (batches m.config.batchSize records) done p.2 := by
  obtain ⟨done, ⟨loads, sends, delivered⟩, metered⟩ :=
    (loadBatch_metered unasked entity sequential records.length
      (batchCount m.config.batchSize records.length)).metered
      (batches m.config.batchSize records) { state := s, step } running within
  exact ⟨done, loads, sends, delivered, metered⟩

end

end Migration

end DataMigration
