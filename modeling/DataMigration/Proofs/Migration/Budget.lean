import DataMigration.Proofs.Migration.Accounting
import DataMigration.Proofs.Migration.Ending
import DataMigration.Proofs.Migration.Loops
import DataMigration.Proofs.Migration.RollingBack

/-!
# The limit on failed records

The failures of both the transformation and the loading phase are charged against one limit, and the
account is looked at after every batch. So a run stops with the first batch that overdraws it: the
batches are told beforehand, from the records at hand, and so is what each of them costs.
-/

namespace DataMigration

/-- The phase in which too many records failed. -/
def MigrationError.limitPhase? : MigrationError → Option RunStatus
  | .tooManyErrors phase _ _ => some phase
  | _ => none

/-- A batch of a run: source records that are transformed for an entity mapping, or target records
that are sent. -/
inductive Task where
  | transform (em : EntityMapping) (sources : List SourceRecord)
  | load (batch : Batch)

namespace Task

/-- The phase in which the batch is worked on. -/
def phase : Task → RunStatus
  | .transform _ _ => .transforming
  | .load _ => .loading

/-- What is sent. -/
def batch? : Task → Option Batch
  | .transform _ _ => none
  | .load batch => some batch

/-- The number of records. -/
def size : Task → Nat
  | .transform _ sources => sources.length
  | .load batch => batch.records.length

end Task

variable {σ : Type}

namespace Migration

variable (m : Migration σ)

/-- The number of failures and the target after a batch. -/
def charge (tools : Toolbox) (account : Nat × Target σ) : Task → Nat × Target σ
  | .transform em sources => (account.1 + m.transformFailures em tools sources, account.2)
  | .load batch =>
    match m.connectors.loader m.config with
    | .ok loader =>
      let p := loader.loadEach batch.records batch.entity batch.upsert account.2
      (account.1 + p.1.failed, p.2)
    | .error _ => account

/-- The working sets with what a batch has become. -/
def fill (tools : Toolbox) (working : List WorkingSet) : Task → List WorkingSet
  | .transform em sources =>
    addRecords em.target (sources.flatMap (m.transformed em tools)) working
  | .load _ => working

/-- The batches of the transformation phase, the mappings in their order. -/
def transformTasks (ems : List EntityMapping) (s : MigrationState σ) : List Task :=
  ems.flatMap fun em =>
    (batches m.config.batchSize (s.extractedRecords em.source.service em.source.entity)).map
      (.transform em)

/-- The batches of the loading phase, the entities in the order in which they are loaded. -/
def loadTasks (mapping : Mapping) (working : List WorkingSet) : List Task :=
  match m.connectors.loader m.config with
  | .ok _ => (m.plan working (loadEntities mapping working)).map .load
  | .error _ => []

/-- All batches of a run with a mapping, from the records that are at hand. -/
def tasksOf (mapping : Mapping) (s : MigrationState σ) : List Task :=
  let transforms := m.transformTasks mapping.entities s
  let working := transforms.foldl (m.fill (m.toolbox (some mapping))) []
  transforms ++ m.loadTasks mapping (working.map m.thinned)

/-- The mapping of a run that comes to its phases. -/
def admitted? (s : MigrationState σ) : Option Mapping :=
  match m.config.check, m.resolveMapping s with
  | .ok _, .ok mapping =>
    if mapping.entities.filterMap m.preflightProblem? = [] then some mapping else none
  | _, _ => none

/-- The batches of a run in their order: those to be transformed, and then those to be sent. -/
def tasks (s : MigrationState σ) : List Task :=
  match m.admitted? s with
  | some mapping => m.tasksOf mapping (m.run s)
  | none => []

/-- The number of records that failed when so many batches are done. -/
def failedAfter (s : MigrationState σ) (n : Nat) : Nat :=
  (((m.tasks s).take n).foldl (m.charge (m.toolbox (m.admitted? s)))
    (0, { s.target with memory := [] })).1

/-- The error that stopped a run, if one did. -/
def outcome (s : MigrationState σ) : Option MigrationError :=
  Stop.error? (m.execute (m.fresh s)).2

theorem tasksOf_congr (mapping : Mapping) {s t : MigrationState σ}
    (same : t.extracted = s.extracted) : m.tasksOf mapping t = m.tasksOf mapping s := by
  simp only [tasksOf, transformTasks, MigrationState.extractedRecords, same]

theorem transformTasks_phase (ems : List EntityMapping) (s : MigrationState σ) :
    ∀ task ∈ m.transformTasks ems s, task.phase = .transforming := by
  intro task member
  obtain ⟨em, _, batch⟩ := List.mem_flatMap.1 member
  obtain ⟨sources, _, rfl⟩ := List.mem_map.1 batch
  rfl

theorem loadTasks_phase (mapping : Mapping) (working : List WorkingSet) :
    ∀ task ∈ m.loadTasks mapping working, task.phase = .loading := by
  intro task member
  simp only [loadTasks] at member
  split at member
  · obtain ⟨batch, _, rfl⟩ := List.mem_map.1 member
    rfl
  · cases member

end Migration

/-- Batches were worked on. -/
structure Does (m : Migration σ) (tools : Toolbox) (tasks : List Task) (s t : MigrationState σ) :
    Prop where
  charged : (t.failures, t.target) = tasks.foldl (m.charge tools) (s.failures, s.target)
  sent : t.sent = s.sent ++ tasks.filterMap Task.batch?
  working : t.working = tasks.foldl (m.fill tools) s.working
  extracted : t.extracted = s.extracted
  running : t.control.signal = .running

/-- Failures are charged to the account by the work on batches only. -/
theorem Kept.failures (m : Migration σ) :
    Kept m (fun s t : MigrationState σ => t.failures = s.failures) :=
  .unmoved m MigrationState.failures fun _ _ _ _ _ _ _ => rfl

/-- Batches are worked on, until one of them overdraws the account. -/
def Meters (m : Migration σ) (tools : Toolbox) (tasks : List Task) (s : MigrationState σ)
    (p : Progressed σ) : Prop :=
  ∃ done, Does m tools done s p.1 ∧
    Metered m.config.maxErrors Task.phase
      (fun ds => (ds.foldl (m.charge tools) (s.failures, s.target)).1) tasks done p.2

/-- The account with which a run begins. -/
def MigrationState.openAccount (s : MigrationState σ) : Nat × Target σ :=
  (s.failures, { s.target with memory := [] })

/-- A run works on its batches, until one of them overdraws the account. If none does, it goes
through or something else stops it. -/
structure Budgeted (m : Migration σ) (tools : Toolbox) (tasks : List Task) (s : MigrationState σ)
    (p : Progressed σ) (done : List Task) (stop : Option (Stop MigrationError)) : Prop where
  metered : Metered m.config.maxErrors Task.phase
    (fun ds => (ds.foldl (m.charge tools) s.openAccount).1) tasks done stop
  ends : p.2 = stop ∨ stop = none ∧
    ∀ phase count max, p.2 ≠ some (.error (.tooManyErrors phase count max))
  sent : p.1.sent = s.sent ++ done.filterMap Task.batch?
  working : ∀ count max, stop = some (.error (.tooManyErrors .transforming count max)) →
    p.1.working = done.foldl (m.fill tools) s.working

theorem MigrationState.openAccount_eq {s t : MigrationState σ} (failures : t.failures = s.failures)
    (target : t.target = s.target) : t.openAccount = s.openAccount := by
  simp only [openAccount, failures, target]

theorem Budgeted.left {m : Migration σ} {tools : Toolbox} {tasks done : List Task}
    {s t : MigrationState σ} {p : Progressed σ} {stop : Option (Stop MigrationError)}
    (h : Budgeted m tools tasks t p done stop) (account : t.openAccount = s.openAccount)
    (sent : t.sent = s.sent)
    (working : ∀ count max, stop = some (.error (.tooManyErrors .transforming count max)) →
      t.working = s.working) : Budgeted m tools tasks s p done stop where
  metered := account ▸ h.metered
  ends := h.ends
  sent := sent ▸ h.sent
  working count max stopped := working count max stopped ▸ h.working count max stopped

/-- A run that goes on behind batches on which it worked. -/
theorem Budgeted.behind {m : Migration σ} {tools : Toolbox} {first tasks done : List Task}
    {s t : MigrationState σ} {p : Progressed σ} {stop : Option (Stop MigrationError)}
    (h : Budgeted m tools tasks t p done stop)
    (account : t.openAccount = first.foldl (m.charge tools) s.openAccount)
    (sent : t.sent = s.sent ++ first.filterMap Task.batch?)
    (late : ∀ count max, stop ≠ some (.error (.tooManyErrors .transforming count max))) :
    Budgeted m tools (first ++ tasks) s p (first ++ done) stop where
  metered := by
    have metered := h.metered
    simp only [account, ← List.foldl_append] at metered
    exact metered.append_left first
  ends := h.ends
  sent := by rw [h.sent, sent, List.filterMap_append, List.append_assoc]
  working count max stopped := absurd stopped (late count max)

/-- Batches that are sent do not stop the transformation. -/
theorem Metered.not_transforming {max : Nat} {spent : List Task → Nat} {tasks done : List Task}
    {stop : Option (Stop MigrationError)} (h : Metered max Task.phase spent tasks done stop)
    (loads : ∀ task ∈ tasks, task.phase = .loading) (count max' : Nat) :
    stop ≠ some (.error (.tooManyErrors .transforming count max')) := by
  rintro rfl
  obtain ⟨task, member, _, same⟩ := h.error
  rw [loads task member] at same
  cases same

variable {m : Migration σ} {tools : Toolbox} {tasks tasks' : List Task} {s t u : MigrationState σ}

theorem Does.nil (running : s.control.signal = .running) : Does m tools [] s s :=
  ⟨rfl, (List.append_nil _).symm, rfl, rfl, running⟩

theorem Does.append (h : Does m tools tasks s t) (h' : Does m tools tasks' t u) :
    Does m tools (tasks ++ tasks') s u where
  charged := by rw [h'.charged, h.charged, List.foldl_append]
  sent := by rw [h'.sent, h.sent, List.filterMap_append, List.append_assoc]
  working := by rw [h'.working, h.working, List.foldl_append]
  extracted := h'.extracted.trans h.extracted
  running := h'.running

theorem Meters.nil (running : s.control.signal = .running)
    (within : s.failures ≤ m.config.maxErrors) : Meters m tools [] s (s, none) :=
  ⟨[], .nil running, .through within⟩

theorem Meters.andThen {p : Progressed σ} (h : Meters m tools tasks s p)
    {f : MigrationState σ → Progressed σ}
    (next : ∀ t, Does m tools tasks s t → t.failures ≤ m.config.maxErrors →
      Meters m tools tasks' t (f t)) :
    Meters m tools (tasks ++ tasks') s (p.andThen f) := by
  obtain ⟨done, does, metered⟩ := h
  obtain ⟨t, _ | e⟩ := p
  · obtain ⟨rfl, _, within⟩ | ⟨stopped, _⟩ := metered.all_or_over
    · rw [← does.charged] at within
      obtain ⟨done', does', metered'⟩ := next t does within
      simp only [does.charged, ← List.foldl_append] at metered'
      exact ⟨done ++ done', does.append does', metered'.append_left done⟩
    · exact absurd rfl stopped
  · exact ⟨done, does, metered.exceeds_append tasks'⟩

namespace Migration

/-! ## What batches cost and leave -/

section

variable (m) (tools)

theorem foldl_charge_transform (em : EntityMapping) (parts : List (List SourceRecord))
    (account : Nat × Target σ) :
    (parts.map (.transform em)).foldl (m.charge tools) account =
      (account.1 + m.transformFailures em tools parts.flatten, account.2) := by
  induction parts generalizing account with
  | nil => rfl
  | cons part parts ih =>
    rw [List.map_cons, List.foldl_cons, ih, charge, List.flatten_cons, m.transformFailures_append,
      Nat.add_assoc]

theorem foldl_charge_load {loader : Loader (Target σ)}
    (found : m.connectors.loader m.config = .ok loader) (entity : String) (upsert : Bool)
    (parts : List (List TargetRecord)) (account : Nat × Target σ) :
    (parts.map fun part => Task.load ⟨entity, part, upsert⟩).foldl (m.charge tools) account =
      let p := loader.loadEach parts.flatten entity upsert account.2
      (account.1 + p.1.failed, p.2) := by
  induction parts generalizing account with
  | nil => rfl
  | cons part parts ih =>
    rw [List.map_cons, List.foldl_cons, ih, charge, found, List.flatten_cons,
      loader.loadEach_append]
    simp only [LoadResult.merge, Nat.add_assoc]

/-- The account of the transformation phase has nothing to do with the target. -/
theorem foldl_charge_transforming {ds : List Task} (all : ∀ task ∈ ds, task.phase = .transforming)
    (n : Nat) (target target' : Target σ) :
    ds.foldl (m.charge tools) (n, target) =
      ((ds.foldl (m.charge tools) (n, target')).1, target) := by
  induction ds generalizing n with
  | nil => rfl
  | cons task ds ih =>
    cases task with
    | transform em sources =>
      exact ih (fun task member => all task (List.mem_cons_of_mem _ member)) _
    | load batch => exact absurd (all _ List.mem_cons_self) (by simp [Task.phase])

theorem addRecords_append (target : EntityRef) (rs rs' : List TargetRecord)
    (working : List WorkingSet) :
    addRecords target (rs ++ rs') working =
      addRecords target rs' (addRecords target rs working) := by
  induction working with
  | nil => simp [addRecords]
  | cons set working ih =>
    simp only [addRecords]
    split
    · rename_i same
      simp [addRecords, same]
    · rename_i other
      simp only [addRecords, if_neg other, ih]

theorem foldl_fill_transform (em : EntityMapping) {parts : List (List SourceRecord)}
    (some : parts ≠ []) (working : List WorkingSet) :
    (parts.map (.transform em)).foldl (m.fill tools) working =
      addRecords em.target (parts.flatten.flatMap (m.transformed em tools)) working := by
  induction parts generalizing working with
  | nil => exact absurd rfl some
  | cons part parts ih =>
    cases parts with
    | nil => simp [fill]
    | cons next parts =>
      have whole : (part :: next :: parts).flatten = part ++ (next :: parts).flatten :=
        List.flatten_cons
      rw [List.map_cons, List.foldl_cons, ih (List.cons_ne_nil _ _), whole, List.flatMap_append,
        addRecords_append, fill]

theorem foldl_fill_load (bs : List Batch) (working : List WorkingSet) :
    (bs.map Task.load).foldl (m.fill tools) working = working := by
  induction bs with
  | nil => rfl
  | cons b bs ih => exact ih

theorem filterMap_transform (em : EntityMapping) (parts : List (List SourceRecord)) :
    (parts.map (Task.transform em)).filterMap Task.batch? = [] := by
  simp [List.filterMap_map, Function.comp_def, Task.batch?]

theorem filterMap_load (bs : List Batch) : (bs.map Task.load).filterMap Task.batch? = bs := by
  simp [List.filterMap_map, Function.comp_def, Task.batch?]

end

/-! ## Phase by phase -/

section

variable (unasked : m.Unasked)
include unasked

theorem transformStep_meters (tools : Toolbox) (em : EntityMapping)
    (running : s.control.signal = .running) (within : s.failures ≤ m.config.maxErrors) :
    Meters m tools
      ((batches m.config.batchSize
        (s.extractedRecords em.source.service em.source.entity)).map (.transform em))
      s (m.transformStep tools em s) := by
  let sources := s.extractedRecords em.source.service em.source.entity
  by_cases none : sources = []
  · rw [m.transformStep_of_nil tools none, show s.extractedRecords _ _ = [] from none]
    exact ⟨[], ⟨rfl, (List.append_nil _).symm, rfl, rfl, running⟩, .through within⟩
  · rw [m.transformStep_of_ne_nil tools none]
    let opened := s.newStep m ("Transform " ++ em.source.entity ++ " to " ++ em.target.entity)
      em.target.entity .transforming
    have untouched := (Untouched.kept m).transformRecords (fun _ _ => ⟨rfl, rfl, rfl, rfl⟩) em tools
      sources opened.1 opened.2
    obtain ⟨done, handled, charged, metered⟩ := transformRecords_metered unasked em tools sources
      opened.2 (show opened.1.control.signal = .running from running) within
    have some : done ≠ [] := metered.ne_nil (batches_ne_nil _ none)
    simp only
    revert untouched handled charged metered
    generalize m.transformRecords em tools sources opened.1 opened.2 = q
    obtain ⟨w, stop⟩ := q
    intro untouched handled charged metered
    obtain ⟨outcome, rfl⟩ := metered.outcome
    simp only [MigrationState.endStep_map, Stop.isOver_map, if_true]
    have target : w.state.target = s.target := untouched.target
    have working : w.state.working = s.working := (congrArg MigrationState.working charged.bare :)
    have extracted : w.state.extracted = s.extracted :=
      (congrArg MigrationState.extracted charged.bare :)
    refine ⟨done.map (.transform em), ⟨?_, ?_, ?_, extracted, charged.running⟩, .map _ ?_⟩
    · rw [m.foldl_charge_transform tools]
      exact Prod.ext charged.failures target
    · rw [filterMap_transform, List.append_nil]
      exact untouched.sent
    · rw [m.foldl_fill_transform tools em some]
      exact congrArg₂ (addRecords em.target) handled.records working
    · simp only [m.foldl_charge_transform tools]
      exact metered

/-- The transformation of entity mappings meters their batches. -/
theorem transformAll_meters (tools : Toolbox) (ems : List EntityMapping)
    (running : s.control.signal = .running) (within : s.failures ≤ m.config.maxErrors) :
    Meters m tools (m.transformTasks ems s) s (m.transformAll tools ems s) := by
  induction ems generalizing s with
  | nil => exact .nil running within
  | cons em ems ih =>
    have first := transformStep_meters unasked tools em running within
    refine first.andThen fun t does within' => ?_
    have same : m.transformTasks ems s = m.transformTasks ems t := by
      simp only [transformTasks, MigrationState.extractedRecords, does.extracted]
    have rest := ih does.running within'
    rw [← same] at rest
    exact rest

theorem loadStep_meters {loader : Loader (Target σ)} (sequential : loader.Sequential)
    (found : m.connectors.loader m.config = .ok loader) (tools : Toolbox) (entity : String)
    (running : s.control.signal = .running) (within : s.failures ≤ m.config.maxErrors) :
    Meters m tools ((m.parcels entity (m.recordsToLoad s.working entity)).map .load) s
      (m.loadStep loader entity s) := by
  let records := m.recordsToLoad s.working entity
  let begun := m.beginLoad entity s
  obtain ⟨done, loads, sends, delivered, metered⟩ := loadRecords_metered unasked entity sequential
    records begun.2 (show begun.1.control.signal = .running from running) within
  have boxed (parts : List (List TargetRecord)) :
      (parts.map fun part => Batch.mk entity part m.config.upsert).map Task.load =
        parts.map fun part => Task.load ⟨entity, part, m.config.upsert⟩ := by
    simp [Function.comp_def]
  rw [loadStep_eq, parcels, boxed]
  revert loads sends delivered metered
  generalize m.loadRecords loader entity records begun.1 begun.2 = q
  obtain ⟨w, stop⟩ := q
  intro loads sends delivered metered
  obtain ⟨outcome, rfl⟩ := metered.outcome
  simp only [MigrationState.endStep_map]
  have working : w.state.working = s.working := (congrArg MigrationState.working delivered.bare :)
  have extracted : w.state.extracted = s.extracted :=
    (congrArg MigrationState.extracted delivered.bare :)
  refine ⟨done.map fun part => .load ⟨entity, part, m.config.upsert⟩,
    ⟨?_, ?_, ?_, extracted, delivered.running⟩, .map _ ?_⟩
  · rw [m.foldl_charge_load tools found]
    exact Prod.ext loads.failures loads.target
  · rw [← boxed, filterMap_load]
    exact sends.sent
  · rw [← boxed, m.foldl_fill_load tools]
    exact working
  · simp only [m.foldl_charge_load tools found]
    exact metered

/-- Loading entities meters their batches. -/
theorem loadAll_meters {loader : Loader (Target σ)} (sequential : loader.Sequential)
    (found : m.connectors.loader m.config = .ok loader) (tools : Toolbox) (entities : List String)
    (running : s.control.signal = .running) (within : s.failures ≤ m.config.maxErrors) :
    Meters m tools ((m.plan s.working entities).map .load) s (m.loadAll loader entities s) := by
  induction entities generalizing s with
  | nil => exact .nil running within
  | cons entity entities ih =>
    have first := loadStep_meters unasked sequential found tools entity running within
    have planned : (m.plan s.working (entity :: entities)).map Task.load =
        (m.parcels entity (m.recordsToLoad s.working entity)).map .load ++
          (m.plan s.working entities).map .load := List.map_append
    rw [planned]
    refine first.andThen fun t does within' => ?_
    have same : t.working = s.working := does.working.trans (m.foldl_fill_load tools _ _)
    rw [← same]
    exact ih does.running within'

theorem runTransformation_meters (mapping : Mapping) (running : s.control.signal = .running)
    (within : s.failures ≤ m.config.maxErrors) :
    Meters m (m.toolbox (some mapping)) (m.transformTasks mapping.entities s) s
      (m.runTransformation mapping s) := by
  have all := transformAll_meters unasked (m.toolbox (some mapping)) mapping.entities running within
  rw [← List.append_nil (m.transformTasks mapping.entities s)]
  refine all.andThen fun t does within' => ?_
  obtain ⟨files, saved⟩ := m.saveTransformed_frame t
  rw [saved]
  exact ⟨[], ⟨rfl, (List.append_nil _).symm, rfl, rfl, does.running⟩, .through within'⟩

/-- The target that the account of a run begins with makes no difference to what the transformation
phase is charged. -/
theorem runTransformation_opens (mapping : Mapping) (running : s.control.signal = .running)
    (within : s.failures ≤ m.config.maxErrors) :
    let p := m.runTransformation mapping s
    let charges := fun ds : List Task =>
      ds.foldl (m.charge (m.toolbox (some mapping))) s.openAccount
    ∃ done, Does m (m.toolbox (some mapping)) done s p.1 ∧
      Metered m.config.maxErrors Task.phase (fun ds => (charges ds).1)
        (m.transformTasks mapping.entities s) done p.2 ∧
      p.1.openAccount = charges done := by
  intro p charges
  obtain ⟨done, does, metered⟩ := runTransformation_meters unasked mapping running within
  have untouched := (Untouched.kept m).runTransformation (fun _ _ => ⟨rfl, rfl, rfl, rfl⟩)
    (fun _ _ => ⟨rfl, rfl, rfl, rfl⟩) mapping s
  have same : ∀ ds, ds <+: m.transformTasks mapping.entities s → charges ds =
      ((ds.foldl (m.charge (m.toolbox (some mapping))) (s.failures, s.target)).1,
        s.openAccount.2) :=
    fun ds first => m.foldl_charge_transforming _
      (fun task member => m.transformTasks_phase _ s task (first.subset member)) _ _ _
  refine ⟨done, does, metered.congr fun ds first => (congrArg Prod.fst (same ds first) :), ?_⟩
  have target : p.1.target = s.target := untouched.target
  rw [same done metered.exists_rest]
  exact Prod.ext (congrArg Prod.fst does.charged :)
    (by simp only [MigrationState.openAccount, target])

theorem validateAll_unasked (sets : List WorkingSet) (running : s.control.signal = .running) :
    (m.validateAll sets s).1 = sets.map m.thinned ∧ (m.validateAll sets s).2.2 = none := by
  induction sets generalizing s with
  | nil => exact ⟨rfl, rfl⟩
  | cons set sets ih =>
    obtain ⟨thinned, through, goes, _⟩ := validateStep_unasked unasked set running
    simp only [validateAll]
    revert thinned through goes
    generalize m.validateStep set s = p
    obtain ⟨set', t, stop⟩ := p
    rintro rfl rfl goes
    obtain ⟨others, through⟩ := ih goes
    exact ⟨congrArg (m.thinned set :: ·) others, through⟩

theorem runValidation_unasked (running : s.control.signal = .running) :
    (m.runValidation s).2 = none ∧ (m.runValidation s).1.working = s.working.map m.thinned := by
  obtain ⟨thinned, through⟩ := validateAll_unasked unasked s.working running
  exact ⟨through, thinned⟩

/-- Nothing but the target at hand stops the loading phase before its first batch. -/
theorem runLoading_meters (mapping : Mapping)
    (sequential : ∀ l, m.connectors.targetLoader m.config = .ok l → l.Sequential)
    (tools : Toolbox) (running : s.control.signal = .running)
    (within : s.failures ≤ m.config.maxErrors) :
    (∃ stop : Stop LoaderError, m.runLoading mapping s = (s, some (stop.map .loader)) ∧
      m.loadTasks mapping s.working = []) ∨
    (∃ service, m.runLoading mapping s = (s, some (.error (.unconnected service)))) ∨
    ∃ loader, Meters m tools (m.loadTasks mapping s.working) (withLoader loader s)
      (m.runLoading mapping s) := by
  simp only [runLoading, loadTasks]
  cases found : m.connectors.loader m.config with
  | error stop => exact .inl ⟨stop, rfl, rfl⟩
  | ok loader =>
    simp only
    split
    · exact .inr (.inr ⟨loader, loadAll_meters unasked
        (Connectors.loader_sequential sequential found) found tools (loadEntities mapping s.working)
        (s := withLoader loader s) running within⟩)
    · exact .inr (.inl ⟨_, rfl⟩)

theorem extractStep_unasked (source : Source) (x : Extracted)
    (running : s.control.signal = .running) :
    (m.extractStep source x s).2 = none ∨
      ∃ e, (m.extractStep source x s).2 = some (.error (.extraction e)) := by
  let opened := s.newStep m ("Extract " ++ source.entity ++ " from " ++ source.service)
    source.entity .extracting
  cases x with
  | ok x =>
    have absorbed := (Steady.kept unasked).absorb (fun _ _ running => ⟨running, rfl, rfl, rfl⟩)
      source x opened.1 opened.2 running
    exact .inl (congrArg Prod.snd
      (MigrationState.checkpoint_unasked (s := (m.absorb source x opened.1 opened.2).1.finishStep m
        (m.absorb source x opened.1 opened.2).2 none) unasked absorbed.signal))
  | error e =>
    simp only [extractStep]
    split
    · exact .inl (congrArg Prod.snd (MigrationState.checkpoint_unasked
        (s := opened.1.finishStep m opened.2 (some (.extraction e))) unasked running))
    · exact .inr ⟨e, rfl⟩

/-- Nothing but a source that cannot be read stops the extraction phase. -/
theorem extractAll_unasked (sources : List Source) (ahead : List Extracted)
    (running : s.control.signal = .running) :
    (m.extractAll sources ahead s).2 = none ∨
      ∃ e, (m.extractAll sources ahead s).2 = some (.error (.extraction e)) := by
  have k := Steady.kept unasked
  induction sources generalizing ahead s with
  | nil => exact .inl rfl
  | cons source rest ih =>
    have next : ∀ x ahead {t}, t.control.signal = .running →
        ((m.extractStep source x t).andThen (m.extractAll rest ahead)).2 = none ∨
        ∃ e, ((m.extractStep source x t).andThen (m.extractAll rest ahead)).2 =
          some (.error (.extraction e)) := by
      intro x ahead t running
      have stops := extractStep_unasked unasked source x running
      have steady := k.extractStep (fun _ _ running => ⟨running, rfl, rfl, rfl⟩) source x t running
      generalize m.extractStep source x t = p at stops steady
      obtain ⟨u, _ | e⟩ := p
      · exact ih ahead steady.signal
      · exact stops
    cases ahead with
    | nil => exact next _ _ (k.readAhead s source rest running).signal
    | cons x ahead => exact next x ahead running

end

/-! ## All phases -/

theorem goTo_next {next : RunStatus} (follows : s.run.status.next? = some next) :
    ∃ run, run.status = next ∧ s.goTo m next = ({ s with run }, none) := by
  obtain ⟨run, goes, status, _⟩ := Run.goTo?_next m.now follows
  exact ⟨run, status, by simp only [MigrationState.goTo, goes]⟩

theorem phase_enters {next : RunStatus} (work : MigrationState σ → Progressed σ)
    (follows : s.run.status.next? = some next) :
    ∃ run, run.status = next ∧ m.phase next work s = work { s with run } := by
  obtain ⟨run, status, entered⟩ := goTo_next (m := m) follows
  exact ⟨run, status, by rw [phase, entered]; rfl⟩

section

variable (unasked : m.Unasked)
  (sequential : ∀ l, m.connectors.targetLoader m.config = .ok l → l.Sequential)
include unasked sequential

/-- The loading phase, and what follows it, meters the batches that are sent. -/
theorem loading_budgeted (mapping : Mapping) (tools : Toolbox)
    (status : s.run.status = .validating) (running : s.control.signal = .running)
    (within : s.failures ≤ m.config.maxErrors) :
    let p := (m.phase .loading (m.runLoading mapping) s).andThen fun s => s.goTo m .completed
    (∃ service, p.2 = some (.error (.unconnected service))) ∨
    ∃ done stop, Budgeted m tools (m.loadTasks mapping s.working) s p done stop ∧
      p.1.extracted = s.extracted := by
  obtain ⟨run, entered, enters⟩ := phase_enters (m := m) (m.runLoading mapping)
    (status ▸ rfl : s.run.status.next? = some .loading)
  have steady := runLoading_steady unasked (s := { s with run }) running mapping
  simp only [enters]
  obtain ⟨stop, stopped, none⟩ | ⟨service, stopped⟩ | ⟨loader, done, does, metered⟩ :=
    runLoading_meters unasked (s := { s with run }) mapping sequential tools running within
  · rw [stopped]
    rw [none]
    have unspent (phase : RunStatus) (count max : Nat) :
        some (stop.map MigrationError.loader) ≠ some (.error (.tooManyErrors phase count max)) := by
      cases stop <;> exact (nomatch ·)
    exact .inr ⟨[], _, ⟨.through within, .inr ⟨rfl, unspent⟩, (List.append_nil _).symm,
      fun _ _ h => absurd h.symm (Option.some_ne_none _)⟩, rfl⟩
  · rw [stopped]
    exact .inl ⟨service, rfl⟩
  · have late := metered.not_transforming (m.loadTasks_phase mapping s.working)
    revert does metered steady late
    generalize m.runLoading mapping { s with run } = q
    obtain ⟨t, _ | e⟩ := q
    · intro steady does metered late
      obtain ⟨run', _, completes⟩ := goTo_next (m := m)
        ((steady.status.trans entered) ▸ rfl : t.run.status.next? = some .completed)
      simp only [Progressed.andThen, completes]
      exact .inr ⟨done, none, ⟨metered, .inl rfl, does.sent,
        fun count max h => absurd h (late count max)⟩, does.extracted⟩
    · intro steady does metered late
      exact .inr ⟨done, some e, ⟨metered, .inl rfl, does.sent,
        fun count max h => absurd h (late count max)⟩, does.extracted⟩

/-- Validation, and what follows it, meters the batches of what is left of the working sets. -/
theorem validating_budgeted (mapping : Mapping) (tools : Toolbox)
    (status : s.run.status = .transforming) (running : s.control.signal = .running)
    (within : s.failures ≤ m.config.maxErrors) :
    let p := (m.phase .validating m.runValidation s).andThen fun s =>
      (m.phase .loading (m.runLoading mapping) s).andThen fun s => s.goTo m .completed
    (∃ service, p.2 = some (.error (.unconnected service))) ∨
    ∃ done stop, Budgeted m tools (m.loadTasks mapping (s.working.map m.thinned)) s p done stop ∧
      p.1.extracted = s.extracted := by
  obtain ⟨run, entered, enters⟩ := phase_enters (m := m) m.runValidation
    (status ▸ rfl : s.run.status.next? = some .validating)
  have steady := runValidation_steady unasked (s := { s with run }) running
  have still := (Untouched.kept m).runValidation (fun _ _ => ⟨rfl, rfl, rfl, rfl⟩) { s with run }
  have failures := (Kept.failures m).runValidation (fun _ _ => rfl) { s with run }
  have extracted := (Kept.extracted m).runValidation (fun _ _ => rfl) { s with run }
  obtain ⟨through, thinned⟩ := runValidation_unasked unasked (s := { s with run }) running
  simp only [enters]
  revert steady still failures extracted through thinned
  generalize m.runValidation { s with run } = q
  obtain ⟨t, stop⟩ := q
  rintro steady still failures extracted rfl thinned
  have loading := loading_budgeted unasked sequential mapping tools (s := t)
    (steady.status.trans entered) steady.signal (failures.trans_le within)
  have working : t.working = s.working.map m.thinned := thinned
  rw [working] at loading
  obtain unreached | ⟨done, stop, budgeted, same⟩ := loading
  · exact .inl unreached
  · have account : t.openAccount = s.openAccount :=
      MigrationState.openAccount_eq failures still.target
    refine .inr ⟨done, stop, budgeted.left account still.sent fun count max h => ?_,
      same.trans extracted⟩
    exact absurd h (budgeted.metered.not_transforming (m.loadTasks_phase mapping _) count max)

/-- Transformation, and what follows it, meters all batches of the extracted records. -/
theorem transforming_budgeted (mapping : Mapping) (status : s.run.status = .extracting)
    (running : s.control.signal = .running) (within : s.failures ≤ m.config.maxErrors)
    (empty : s.working = []) :
    let p := (m.phase .transforming (m.runTransformation mapping) s).andThen fun s =>
      (m.phase .validating m.runValidation s).andThen fun s =>
        (m.phase .loading (m.runLoading mapping) s).andThen fun s => s.goTo m .completed
    (∃ service, p.2 = some (.error (.unconnected service))) ∨
    ∃ done stop, Budgeted m (m.toolbox (some mapping)) (m.tasksOf mapping s) s p done stop ∧
      p.1.extracted = s.extracted := by
  obtain ⟨run, entered, enters⟩ := phase_enters (m := m) (m.runTransformation mapping)
    (status ▸ rfl : s.run.status.next? = some .transforming)
  have steady := runTransformation_steady unasked (s := { s with run }) running mapping
  obtain ⟨done, does, opened, account⟩ :=
    runTransformation_opens unasked (s := { s with run }) mapping running within
  simp only [enters]
  revert steady does opened account
  generalize m.runTransformation mapping { s with run } = q
  obtain ⟨t, _ | e⟩ := q
  · intro steady does opened account
    obtain ⟨rfl, _, within'⟩ | ⟨stopped, _⟩ := opened.all_or_over
    swap
    · exact absurd rfl stopped
    have working : t.working = (m.transformTasks mapping.entities s).foldl
        (m.fill (m.toolbox (some mapping))) [] := empty ▸ does.working
    rw [← account] at within'
    have further := validating_budgeted unasked sequential mapping (m.toolbox (some mapping))
      (s := t) (steady.status.trans entered) steady.signal within'
    rw [working] at further
    obtain unreached | ⟨done, stop, budgeted, same⟩ := further
    · exact .inl unreached
    · have late := budgeted.metered.not_transforming (m.loadTasks_phase mapping _)
      exact .inr ⟨_, stop, budgeted.behind account does.sent late, same.trans does.extracted⟩
  · intro steady does opened account
    exact .inr ⟨done, some e, ⟨opened.exceeds_append _, .inl rfl, does.sent,
      fun _ _ _ => does.working⟩, does.extracted⟩

/-- All phases together meter the batches that the extracted records give. -/
theorem phases_budgeted (mapping : Mapping) (status : s.run.status = .pending)
    (running : s.control.signal = .running) (within : s.failures ≤ m.config.maxErrors)
    (empty : s.working = []) :
    let p := m.phases mapping s
    (∃ e, p.2 = some (.error (.extraction e))) ∨
    (∃ service, p.2 = some (.error (.unconnected service))) ∨
    ∃ done stop,
      Budgeted m (m.toolbox (some mapping)) (m.tasksOf mapping p.1) s p done stop := by
  obtain ⟨run, entered, enters⟩ := phase_enters (m := m) m.runExtraction
    (status ▸ rfl : s.run.status.next? = some .extracting)
  have steady := runExtraction_steady unasked (s := { s with run }) running
  have still := (Untouched.kept m).runExtraction (fun _ _ => ⟨rfl, rfl, rfl, rfl⟩) { s with run }
  have working := (Kept.working m).runExtraction (fun _ _ => rfl) { s with run }
  have failures := (Kept.failures m).runExtraction (fun _ _ => rfl) { s with run }
  have stops : (m.runExtraction { s with run }).2 = none ∨
      ∃ e, (m.runExtraction { s with run }).2 = some (.error (.extraction e)) :=
    extractAll_unasked unasked m.config.sources [] running
  have inOrder : m.phases mapping s = (m.runExtraction { s with run }).andThen fun s =>
      (m.phase .transforming (m.runTransformation mapping) s).andThen fun s =>
        (m.phase .validating m.runValidation s).andThen fun s =>
          (m.phase .loading (m.runLoading mapping) s).andThen fun s => s.goTo m .completed := by
    simp only [phases, prepare, Progressed.andThen_assoc, enters]
  simp only [inOrder]
  revert steady still working failures stops
  generalize m.runExtraction { s with run } = q
  obtain ⟨t, stop⟩ := q
  rintro steady still working failures (rfl | ⟨e, rfl⟩)
  · obtain unreached | ⟨done, stop, budgeted, same⟩ :=
      transforming_budgeted unasked sequential mapping (s := t) (steady.status.trans entered)
        steady.signal (failures.trans_le within) (working.trans empty)
    · exact .inr (.inl unreached)
    · have account : t.openAccount = s.openAccount :=
        MigrationState.openAccount_eq failures still.target
      refine .inr (.inr ⟨done, stop, ?_⟩)
      have tasks := m.tasksOf_congr mapping same
      rw [← tasks] at budgeted
      exact budgeted.left account still.sent fun _ _ _ => working
  · exact .inl ⟨e, rfl⟩

end

/-! ## A whole run -/

theorem resolveMapping_ne {e : MigrationError} (h : m.resolveMapping s = .error e)
    (phase : RunStatus) (count max : Nat) : e ≠ .tooManyErrors phase count max := by
  simp only [resolveMapping] at h
  split at h
  · cases h
  · split at h <;> cases h
    simp
  · cases h
    simp

/-- A run is admitted to its phases, or it stops before anything is done. -/
theorem execute_admitted (m : Migration σ) (s : MigrationState σ) :
    (∃ mapping, m.admitted? s = some mapping ∧ 0 < m.config.batchSize ∧
      m.execute (m.fresh s) = m.phases mapping (adopt mapping (m.fresh s))) ∨
    (m.admitted? s = none ∧ (m.execute (m.fresh s)).1.sent = s.sent ∧
      (m.execute (m.fresh s)).1.failures = 0 ∧
      ∀ phase count max,
        (m.execute (m.fresh s)).2 ≠ some (.error (.tooManyErrors phase count max))) := by
  simp only [admitted?, execute, resolveMapping_fresh]
  cases checked : m.config.check with
  | error e => exact .inr ⟨rfl, rfl, rfl, fun _ _ _ h => by cases h⟩
  | ok _ =>
    cases resolved : m.resolveMapping s with
    | error e =>
      refine .inr ⟨rfl, rfl, rfl, fun phase count max spent => ?_⟩
      exact resolveMapping_ne resolved phase count max (Stop.error.inj (Option.some.inj spent))
    | ok mapping =>
      simp only [preflight]
      cases mapping.entities.filterMap m.preflightProblem? with
      | nil => exact .inl ⟨mapping, if_pos rfl, Config.batchSize_pos checked, rfl⟩
      | cons _ _ =>
        exact .inr ⟨if_neg (List.cons_ne_nil _ _), rfl, rfl, fun _ _ _ h => by cases h⟩

/-- A run that no request stops does what it does without requests. -/
theorem execute_undisturbed (m : Migration σ) (s : MigrationState σ)
    (uncancelled : m.outcome s ≠ some .cancelled) (unpaused : m.standstill? s ≠ some .waits) :
    ∃ c, m.undisturbed.execute (m.undisturbed.fresh (s.under {})) =
      ((m.execute (m.fresh s)).1.under c, (m.execute (m.fresh s)).2) := by
  have follows : Follows .completed (m.execute (m.fresh s))
      (m.undisturbed.execute (m.undisturbed.fresh (s.under {}))) :=
    execute_follows (m.fresh s) {} ⟨rfl, rfl, rfl, List.not_mem_nil⟩ rfl
  revert uncancelled unpaused follows
  simp only [outcome, standstill?]
  generalize m.execute (m.fresh s) = p, m.undisturbed.execute _ = q
  intro uncancelled unpaused follows
  cases follows with
  | @goesOn b c _ _ => exact ⟨c, rfl⟩
  | @fails b c e _ _ => exact ⟨c, rfl⟩
  | cut halted _ =>
    cases halted with
    | cancelled _ _ _ => exact absurd rfl uncancelled
    | waits _ _ _ _ => exact absurd rfl unpaused

theorem tasks_of_admitted (m : Migration σ) (s : MigrationState σ) {mapping : Mapping}
    (admitted : m.admitted? s = some mapping) :
    m.tasks s = m.tasksOf mapping (m.execute (m.fresh s)).1 := by
  obtain ⟨run, events, files, path, ran, _⟩ := m.run_frame s
  simp only [tasks, admitted]
  exact m.tasksOf_congr mapping (congrArg MigrationState.extracted ran :)

/-- A run meters its batches. -/
theorem run_budgeted (m : Migration σ) (s : MigrationState σ)
    (sequential : ∀ l, m.connectors.targetLoader m.config = .ok l → l.Sequential)
    (uncancelled : m.outcome s ≠ some .cancelled) (unpaused : m.standstill? s ≠ some .waits)
    (extracted : ∀ e, m.outcome s ≠ some (.extraction e))
    (reached : ∀ service, m.outcome s ≠ some (.unconnected service)) :
    ∃ done stop, Budgeted m (m.toolbox (m.admitted? s)) (m.tasks s) (m.fresh s)
      (m.execute (m.fresh s)) done stop := by
  cases admitted : m.admitted? s with
  | none =>
    obtain ⟨_, some, _⟩ | ⟨_, sent, _, ends⟩ := m.execute_admitted s
    · exact absurd (admitted.symm.trans some) (Option.some_ne_none _).symm
    · simp only [tasks, admitted]
      exact ⟨[], none, .through (Nat.zero_le _), .inr ⟨rfl, ends⟩,
        sent.trans (List.append_nil _).symm, fun _ _ h => absurd h.symm (Option.some_ne_none _)⟩
  | some mapping =>
    have same : m.undisturbed.admitted? (s.under {}) = some mapping := admitted
    obtain ⟨_, admits, _, executes⟩ | ⟨none, _⟩ := m.undisturbed.execute_admitted (s.under {})
    swap
    · exact absurd (none.symm.trans same) (Option.some_ne_none _).symm
    obtain rfl : mapping = _ := Option.some.inj (same.symm.trans admits)
    obtain ⟨c, alike⟩ := m.execute_undisturbed s uncancelled unpaused
    rw [executes] at alike
    have phases := phases_budgeted (m := m.undisturbed) (fun _ => rfl) sequential mapping
      (s := adopt mapping (m.undisturbed.fresh (s.under {}))) rfl rfl (Nat.zero_le _) rfl
    simp only [alike] at phases
    obtain ⟨e, stopped⟩ | ⟨service, stopped⟩ | ⟨done, stop, budgeted⟩ := phases
    · exact absurd (congrArg Stop.error? stopped) (extracted e)
    · exact absurd (congrArg Stop.error? stopped) (reached service)
    · rw [m.tasks_of_admitted s admitted]
      exact ⟨done, stop, budgeted.metered, budgeted.ends, budgeted.sent, budgeted.working⟩

/-! ## Runs that no error stops -/

/-- The account is not overdrawn unless an error stopped the work. -/
def Solvent (m : Migration σ) {β : Type} (failures : β → Nat)
    (p : β × Option (Stop MigrationError)) : Prop :=
  Stop.error? p.2 = none → failures p.1 ≤ m.config.maxErrors

section

variable {m : Migration σ} {s : MigrationState σ}

theorem Solvent.error {β : Type} {failures : β → Nat} (b : β) (e : MigrationError) :
    m.Solvent failures (b, some (.error e)) :=
  fun none => absurd none (Option.some_ne_none _)

theorem Solvent.andThen {p : Progressed σ} (h : m.Solvent MigrationState.failures p)
    {f : MigrationState σ → Progressed σ}
    (next : ∀ t, t.failures ≤ m.config.maxErrors → m.Solvent MigrationState.failures (f t)) :
    m.Solvent MigrationState.failures (p.andThen f) := by
  obtain ⟨t, _ | stop⟩ := p
  · exact next t (h rfl)
  · exact h

theorem goTo_solvent (within : s.failures ≤ m.config.maxErrors) (next : RunStatus) :
    m.Solvent MigrationState.failures (s.goTo m next) := fun _ =>
  (s.goTo_unmoved m MigrationState.failures (fun _ _ => rfl) next).trans_le within

/-- The account is looked at after every batch, so no batch has to begin with a sound one. -/
theorem batchEnd_solvent (s : MigrationState σ) (phase : RunStatus) :
    m.Solvent MigrationState.failures
      ((s.checkBudget m phase).andThen (MigrationState.checkpoint m)) := by
  simp only [MigrationState.checkBudget]
  split
  · exact .error _ _
  · rename_i within
    exact fun _ => ((Kept.failures m).checkpoint s).trans_le (Nat.le_of_not_lt within)

theorem runTransformation_solvent (mapping : Mapping) (within : s.failures ≤ m.config.maxErrors) :
    m.Solvent MigrationState.failures (m.runTransformation mapping s) := by
  have step (tools : Toolbox) (em : EntityMapping) {s : MigrationState σ}
      (within : s.failures ≤ m.config.maxErrors) :
      m.Solvent MigrationState.failures (m.transformStep tools em s) := by
    by_cases none : s.extractedRecords em.source.service em.source.entity = []
    · rw [m.transformStep_of_nil tools none]
      exact fun _ => within
    · rw [m.transformStep_of_ne_nil tools none]
      let begun := s.newStep m ("Transform " ++ em.source.entity ++ " to " ++ em.target.entity)
        em.target.entity .transforming
      have batch (total : Nat) (w : Work σ) (part : List SourceRecord) :
          m.Solvent (fun w => w.state.failures) (m.transformBatch em tools total w part) :=
        batchEnd_solvent _ .transforming
      have works (sources : List SourceRecord) : m.Solvent (fun w => w.state.failures)
          (m.transformRecords em tools sources begun.1 begun.2) :=
        overBatches_of_each (batch _) _ fun _ => within
      exact fun unstopped =>
        (MigrationState.endStep_failures m _ _ _).trans_le (works _ unstopped)
  have all (tools : Toolbox) (ems : List EntityMapping) {s : MigrationState σ}
      (within : s.failures ≤ m.config.maxErrors) :
      m.Solvent MigrationState.failures (m.transformAll tools ems s) := by
    induction ems generalizing s with
    | nil => exact fun _ => within
    | cons em rest ih => exact (step tools em within).andThen fun t => ih
  refine (all _ mapping.entities within).andThen fun t within => ?_
  obtain ⟨files, saved⟩ := m.saveTransformed_frame t
  rw [saved]
  exact fun _ => within

theorem runLoading_solvent (mapping : Mapping) (within : s.failures ≤ m.config.maxErrors) :
    m.Solvent MigrationState.failures (m.runLoading mapping s) := by
  have step (loader : Loader (Target σ)) (entity : String) {s : MigrationState σ}
      (within : s.failures ≤ m.config.maxErrors) :
      m.Solvent MigrationState.failures (m.loadStep loader entity s) := by
    have batch (total count : Nat) (w : Sending σ) (part : List TargetRecord) :
        m.Solvent (fun w => w.state.failures) (m.loadBatch loader entity total count w part) :=
      batchEnd_solvent _ .loading
    have works (records : List TargetRecord) : m.Solvent (fun w => w.state.failures)
        (m.loadRecords loader entity records (m.beginLoad entity s).1 (m.beginLoad entity s).2) :=
      overBatches_of_each (batch _ _) _ fun _ => within
    rw [loadStep_eq]
    exact fun unstopped => (MigrationState.endStep_failures m _ _ _).trans_le (works _ unstopped)
  have all (loader : Loader (Target σ)) (entities : List String) {s : MigrationState σ}
      (within : s.failures ≤ m.config.maxErrors) :
      m.Solvent MigrationState.failures (m.loadAll loader entities s) := by
    induction entities generalizing s with
    | nil => exact fun _ => within
    | cons entity rest ih => exact (step loader entity within).andThen fun t => ih
  simp only [runLoading]
  split
  · exact fun _ => within
  · split
    · exact all _ _ within
    · exact .error _ _

theorem phases_solvent (mapping : Mapping) (within : s.failures ≤ m.config.maxErrors) :
    m.Solvent MigrationState.failures (m.phases mapping s) := by
  have phase (status : RunStatus) {work : MigrationState σ → Progressed σ}
      (works : ∀ t, t.failures ≤ m.config.maxErrors → m.Solvent MigrationState.failures (work t))
      (t : MigrationState σ) (within : t.failures ≤ m.config.maxErrors) :
      m.Solvent MigrationState.failures (m.phase status work t) :=
    (goTo_solvent within status).andThen works
  have k := Kept.failures m
  have extracting := phase .extracting (fun t within _ =>
    (k.runExtraction (fun _ _ => rfl) t).trans_le within) s within
  have transforming := extracting.andThen
    (phase .transforming fun _ => runTransformation_solvent mapping)
  have validating := transforming.andThen
    (phase .validating fun t within _ => (k.runValidation (fun _ _ => rfl) t).trans_le within)
  have loading := validating.andThen (phase .loading fun _ => runLoading_solvent mapping)
  exact loading.andThen fun t within => goTo_solvent within .completed

end

/-- No error stops a run that comes to a standstill. -/
theorem outcome_of_standstill (m : Migration σ) {s : MigrationState σ} {why : Standstill}
    (stands : m.standstill? s = some why) : m.outcome s = none := by
  revert stands
  rw [standstill?, outcome]
  obtain _ | _ | _ := (m.execute (m.fresh s)).2 <;> intro stands <;> first | rfl | cases stands

/-- A run that no error stops, be it completed or left waiting, has not overdrawn its account. -/
theorem run_solvent (m : Migration σ) (s : MigrationState σ) (unstopped : m.outcome s = none) :
    (m.run s).failures ≤ m.config.maxErrors := by
  have solvent : m.Solvent MigrationState.failures (m.execute (m.fresh s)) := by
    obtain ⟨mapping, _, _, executes⟩ | ⟨_, _, unspent, _⟩ := m.execute_admitted s
    · rw [executes]
      exact phases_solvent mapping (Nat.zero_le _)
    · exact fun _ => unspent.trans_le (Nat.zero_le _)
  obtain ⟨run, events, files, path, ran, _⟩ := m.run_frame s
  rw [ran]
  exact solvent unstopped

/-! ## The first batch over the limit -/

theorem charge_le (m : Migration σ) (tools : Toolbox) (account : Nat × Target σ) (task : Task) :
    account.1 ≤ (m.charge tools account task).1 ∧
      (m.charge tools account task).1 ≤ account.1 + task.size := by
  cases task with
  | transform em sources =>
    exact ⟨Nat.le_add_right _ _, Nat.add_le_add_left List.countP_le_length _⟩
  | load batch =>
    simp only [charge]
    split
    · rename_i loader _
      have balanced := loader.loadEach_balanced batch.records batch.entity batch.upsert account.2
      have attempted := loader.loadEach_attempted batch.records batch.entity batch.upsert account.2
      have failed := balanced.attempted
      simp only [Task.size]
      omega
    · exact ⟨Nat.le_refl _, Nat.le_add_right _ _⟩

theorem failedAfter_mono (m : Migration σ) (s : MigrationState σ) {n k : Nat} (h : n ≤ k) :
    m.failedAfter s n ≤ m.failedAfter s k := by
  have grows : ∀ (ds : List Task) (account : Nat × Target σ),
      account.1 ≤ (ds.foldl (m.charge (m.toolbox (m.admitted? s))) account).1 := by
    intro ds
    induction ds with
    | nil => exact fun _ => Nat.le_refl _
    | cons task ds ih => exact fun account => (m.charge_le _ account task).1.trans (ih _)
  obtain ⟨l, rfl⟩ := Nat.exists_eq_add_of_le h
  simp only [failedAfter]
  rw [List.take_add, List.foldl_append]
  exact grows _ _

/-- A batch costs as many failures as it has records at most. -/
theorem failedAfter_succ_le (m : Migration σ) (s : MigrationState σ) {n : Nat} {task : Task}
    (h : (m.tasks s)[n]? = some task) :
    m.failedAfter s (n + 1) ≤ m.failedAfter s n + task.size := by
  simp only [failedAfter, List.take_add_one, h, Option.toList_some, List.foldl_append]
  exact (m.charge_le _ _ task).2

theorem tasksOf_size_le (m : Migration σ) (mapping : Mapping) (s : MigrationState σ) :
    ∀ task ∈ m.tasksOf mapping s, task.size ≤ max m.config.batchSize 1 := by
  intro task member
  obtain transform | load := List.mem_append.1 member
  · obtain ⟨em, _, batch⟩ := List.mem_flatMap.1 transform
    obtain ⟨sources, part, rfl⟩ := List.mem_map.1 batch
    exact (batches_chunks _ _).length_le sources part
  · simp only [loadTasks] at load
    split at load
    · obtain ⟨batch, planned, rfl⟩ := List.mem_map.1 load
      obtain ⟨entity, _, parcel⟩ := List.mem_flatMap.1 planned
      obtain ⟨records, part, rfl⟩ := List.mem_map.1 parcel
      exact (batches_chunks _ _).length_le records part
    · cases load

theorem tasks_size_le (m : Migration σ) (s : MigrationState σ) :
    ∀ task ∈ m.tasks s, task.size ≤ m.config.batchSize := by
  intro task member
  obtain ⟨mapping, admitted, positive, _⟩ | ⟨refused, _⟩ := m.execute_admitted s
  · simp only [tasks, admitted] at member
    have most := m.tasksOf_size_le mapping (m.run s) task member
    omega
  · simp only [tasks, refused] at member
    cases member

/-- At most one batch is the first after which too many records have failed. -/
theorem first_beyond_unique (m : Migration σ) (s : MigrationState σ) {n k : Nat}
    (before : m.failedAfter s n ≤ m.config.maxErrors)
    (beyond : m.config.maxErrors < m.failedAfter s (n + 1))
    (before' : m.failedAfter s k ≤ m.config.maxErrors)
    (beyond' : m.config.maxErrors < m.failedAfter s (k + 1)) : k = n := by
  have order : ∀ {a b}, m.failedAfter s b ≤ m.config.maxErrors →
      m.config.maxErrors < m.failedAfter s (a + 1) → b ≤ a := by
    intro a b within spent
    by_contra less
    have most := m.failedAfter_mono s (Nat.succ_le_of_lt (Nat.lt_of_not_le less))
    exact absurd (spent.trans_le (most.trans within)) (Nat.lt_irrefl _)
  exact Nat.le_antisymm (order before' beyond) (order before beyond')

/-- A run in which too many records failed has failed with that error, and sent and kept what it had
until then. -/
theorem run_of_tooManyErrors (m : Migration σ) (s : MigrationState σ) {phase : RunStatus}
    {count max : Nat} (stopped : m.outcome s = some (.tooManyErrors phase count max)) :
    (m.run s).run.status = .failed ∧
      (m.run s).run.errors.map RunError.message =
        [MigrationError.message (.tooManyErrors phase count max)] ∧
      (m.run s).sent = (m.execute (m.fresh s)).1.sent ∧
      (m.run s).working = (m.execute (m.fresh s)).1.working := by
  have leaves := m.run_leaves s
  obtain ⟨run, events, files, path, ran, _⟩ := m.run_frame s
  rw [Stop.eq_of_error? stopped] at leaves
  obtain ⟨status, _, errors⟩ := leaves.ended
  have messages := congrArg (List.map Prod.snd) errors
  refine ⟨status, ?_, (congrArg MigrationState.sent ran :), (congrArg MigrationState.working ran :)⟩
  simpa [Function.comp_def, MigrationState.endErrors] using messages

/-- The first batch after which too many records have failed, and nothing else, ends a run with
that error. What comes after it is not done: of the batches in their order, those before it and
this one are transformed, and those before it and this one are sent. The error tells how many
records have failed, and of one batch at most more than were allowed. Only a run that waits for ever
in a pause may never come to that batch; until then no batch was over the limit. -/
theorem run_stops_at_first_batch_over_limit (m : Migration σ) (s : MigrationState σ)
    (sequential : ∀ l, m.connectors.targetLoader m.config = .ok l → l.Sequential)
    (uncancelled : m.outcome s ≠ some .cancelled)
    (extracted : ∀ e, m.outcome s ≠ some (.extraction e))
    (reached : ∀ service, m.outcome s ≠ some (.unconnected service)) :
    (m.standstill? s = some .waits ∧ m.outcome s = none ∧
      (m.run s).failures ≤ m.config.maxErrors) ∨
    (((∃ phase count max, m.outcome s = some (.tooManyErrors phase count max)) ↔
      ∃ n ≤ (m.tasks s).length, m.config.maxErrors < m.failedAfter s n) ∧
    ∀ n task, (m.tasks s)[n]? = some task →
      (∀ k ≤ n, m.failedAfter s k ≤ m.config.maxErrors) →
      m.config.maxErrors < m.failedAfter s (n + 1) →
      let error := MigrationError.tooManyErrors task.phase (m.failedAfter s (n + 1))
        m.config.maxErrors
      let done := (m.tasks s).take (n + 1)
      m.outcome s = some error ∧
      (m.run s).run.status = .failed ∧
      (m.run s).run.errors.map RunError.message = [error.message] ∧
      (m.run s).sent = s.sent ++ done.filterMap Task.batch? ∧
      (task.phase = .transforming →
        (m.run s).working = done.foldl (m.fill (m.toolbox (m.admitted? s))) []) ∧
      m.failedAfter s (n + 1) ≤ m.config.maxErrors + m.config.batchSize) := by
  obtain waits | unpaused := eq_or_ne (m.standstill? s) (some .waits)
  · have unstopped := m.outcome_of_standstill waits
    exact .inl ⟨waits, unstopped, m.run_solvent s unstopped⟩
  obtain ⟨done, stop, metered, ends, sent, working⟩ :=
    m.run_budgeted s sequential uncancelled unpaused extracted reached
  have overdrawn : ∀ {e}, stop = some (.error e) → m.outcome s = some e := by
    rintro e rfl
    obtain same | ⟨none, _⟩ := ends
    · exact congrArg Stop.error? same
    · cases none
  refine .inr ⟨⟨?_, ?_⟩, ?_⟩
  · rintro ⟨phase, count, max, stopped⟩
    obtain same | ⟨_, other⟩ := ends
    · obtain ⟨rfl, _⟩ | ⟨n, task, found, _, _, beyond, _⟩ := metered.first_over
      · cases same.symm.trans (Stop.eq_of_error? stopped)
      · have place := (List.getElem?_eq_some_iff.1 found).1
        exact ⟨n + 1, place, beyond⟩
    · exact absurd (Stop.eq_of_error? stopped) (other phase count max)
  · rintro ⟨n, place, beyond⟩
    obtain ⟨_, within⟩ | ⟨_, _, _, _, _, _, stopped⟩ := metered.first_over
    · have most := m.failedAfter_mono s place
      exact absurd (beyond.trans_le (most.trans within)) (Nat.lt_irrefl _)
    · exact ⟨_, _, _, overdrawn stopped⟩
  · intro n task found before beyond error done
    have place := (List.getElem?_eq_some_iff.1 found).1
    obtain ⟨_, within⟩ | ⟨k, task', found', rfl, within, beyond', stopped⟩ := metered.first_over
    · have most := m.failedAfter_mono s (Nat.succ_le_of_lt place)
      exact absurd (beyond.trans_le (most.trans within)) (Nat.lt_irrefl _)
    obtain rfl : k = n := m.first_beyond_unique s (before n (Nat.le_refl n)) beyond within beyond'
    obtain rfl : task = task' := Option.some.inj (found.symm.trans found')
    have outcome : m.outcome s = some error := overdrawn stopped
    obtain ⟨status, messages, sends, keeps⟩ := m.run_of_tooManyErrors s outcome
    refine ⟨outcome, status, messages, sends.trans sent, fun transforming => ?_, ?_⟩
    · exact keeps.trans (working _ _ (transforming ▸ stopped))
    · have cost := m.failedAfter_succ_le s found
      have size := m.tasks_size_le s task (List.mem_of_getElem? found)
      have allowed := before k (Nat.le_refl k)
      omega

/-- Contacts are loaded one by one and never replaced, and no failure is allowed. -/
def carefulMigration : Migration Memory :=
  { contactMigration with
    config := { contactMigration.config with
      deduplication := [], batchSize := 1, maxErrors := 0, upsert := false } }

/-- The first of two contacts is there already, so the second one is not sent. -/
theorem carefulMigration_stops_at_first_batch_over_limit :
    (∀ l, carefulMigration.connectors.targetLoader carefulMigration.config = .ok l →
      l.Sequential) ∧
    carefulMigration.standstill? (contactStateWith "shop_1") = none ∧
    (carefulMigration.outcome (contactStateWith "shop_1")).bind MigrationError.limitPhase? =
      some .loading ∧
    (carefulMigration.tasks (contactStateWith "shop_1")).length = 4 ∧
    carefulMigration.failedAfter (contactStateWith "shop_1") 2 = 0 ∧
    carefulMigration.failedAfter (contactStateWith "shop_1") 3 = 1 ∧
    (carefulMigration.run (contactStateWith "shop_1")).run.status = .failed ∧
    (carefulMigration.run (contactStateWith "shop_1")).sent =
      ((carefulMigration.tasks (contactStateWith "shop_1")).take 3).filterMap Task.batch? := by
  have sequential : ∀ l,
      carefulMigration.connectors.targetLoader carefulMigration.config = .ok l → l.Sequential := by
    rintro l ⟨⟩ rs entity upsert target
    rfl
  have stopped : (carefulMigration.outcome (contactStateWith "shop_1")).bind
      MigrationError.limitPhase? = some .loading := by decide +kernel
  have length : (carefulMigration.tasks (contactStateWith "shop_1")).length = 4 := by
    decide +kernel
  have before : carefulMigration.failedAfter (contactStateWith "shop_1") 2 = 0 := by
    decide +kernel
  have after : carefulMigration.failedAfter (contactStateWith "shop_1") 3 = 1 := by
    decide +kernel
  have comesBack : carefulMigration.standstill? (contactStateWith "shop_1") = none := by
    decide +kernel
  have stops := run_stops_at_first_batch_over_limit carefulMigration (contactStateWith "shop_1")
    sequential
  have allowed : carefulMigration.config.maxErrors = 0 := rfl
  have fresh : (contactStateWith "shop_1").sent = [] := rfl
  rw [allowed, fresh] at stops
  revert stopped length before after stops
  generalize carefulMigration.outcome (contactStateWith "shop_1") = outcome,
    carefulMigration.tasks (contactStateWith "shop_1") = tasks
  intro stopped length before after stops
  have otherwise : ∀ e : MigrationError, e.limitPhase? = none → outcome ≠ some e := by
    rintro e none rfl
    rw [Option.bind_some, none] at stopped
    cases stopped
  obtain ⟨task, found⟩ : ∃ task, tasks[2]? = some task :=
    ⟨_, List.getElem?_eq_getElem (by rw [length]; decide)⟩
  obtain ⟨waits, _⟩ | ⟨_, first⟩ := stops (otherwise .cancelled rfl)
    (fun e => otherwise (.extraction e) rfl) (fun service => otherwise (.unconnected service) rfl)
  · exact absurd (comesBack.symm.trans waits) (Option.some_ne_none _).symm
  · obtain ⟨_, status, _, sent, _⟩ := first 2 task found
      (fun k first => (failedAfter_mono _ _ first).trans before.le) (by rw [after]; decide)
    exact ⟨sequential, comesBack, stopped, length, before, after, status, sent⟩

end Migration

end DataMigration
