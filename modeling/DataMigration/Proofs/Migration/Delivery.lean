import DataMigration.Proofs.Migration.Moves

/-!
# What reaches the target

Batches are sent in the loading phase only, in the order of a plan that is made of the working set:
entity by entity, batch by batch. A run that is stopped has sent a prefix of the plan, and the
target and the ids that are noted as created are what delivering these batches gives.
-/

namespace DataMigration

variable {σ : Type}

/-- The target, and the ids created in it, after a batch. -/
def Loader.deliver (loader : Loader (Target σ)) (acc : Target σ × Dict (List String))
    (batch : Batch) : Target σ × Dict (List String) :=
  let (r, target) := loader.loadBatch batch.records batch.entity batch.upsert acc.1
  (target, Dict.upsert acc.2 batch.entity [] (· ++ r.created))

namespace MigrationState

theorem sent_note (m : Migration σ) (s : MigrationState σ) (a : Activity) :
    (s.note m a).sent = s.sent ++ a.batch?.toList := by
  simp [sent, note, List.filterMap_append, List.filterMap_cons]
  cases a.batch? <;> rfl

end MigrationState

/-- Nothing was sent, and the target and what is known about it are as they were. -/
structure Untouched (s t : MigrationState σ) : Prop where
  sent : t.sent = s.sent
  target : t.target = s.target
  created : t.run.created = s.run.created
  loader : t.loader = s.loader

namespace Untouched

theorem refl (s : MigrationState σ) : Untouched s s := ⟨rfl, rfl, rfl, rfl⟩

theorem trans {s t u : MigrationState σ} (h : Untouched s t) (h' : Untouched t u) :
    Untouched s u :=
  ⟨h'.sent.trans h.sent, h'.target.trans h.target, h'.created.trans h.created,
    h'.loader.trans h.loader⟩

theorem kept (m : Migration σ) : Kept m Untouched where
  refl := refl
  trans := trans
  emit _ _ := ⟨rfl, rfl, rfl, rfl⟩
  note s a silent := ⟨by rw [s.sent_note, silent]; exact List.append_nil _, rfl, rfl, rfl⟩
  newStep _ _ _ _ := ⟨rfl, rfl, rfl, rfl⟩
  checkpoint s := by
    obtain ⟨run, control, changed, account, _⟩ := s.checkpoint_frame m
    rw [changed]
    exact ⟨(s.sent_note m .checkpoint).trans (List.append_nil _), rfl, account.created, rfl⟩
  finishStep _ _ _ := ⟨rfl, rfl, rfl, rfl⟩
  files _ _ := ⟨rfl, rfl, rfl, rfl⟩

theorem goTo (m : Migration σ) (s : MigrationState σ) (next : RunStatus) :
    Untouched s (s.goTo m next).1 := by
  obtain ⟨run, changed, account, _⟩ := s.goTo_frame m next
  rw [changed]
  exact ⟨rfl, rfl, account.created, rfl⟩

/-- Nothing is sent before the loading phase. -/
theorem prepare (m : Migration σ) (mapping : Mapping) (s : MigrationState σ) :
    Untouched s (m.prepare mapping s).1 :=
  (kept m).prepare (fun s next _ => goTo m s next) (fun _ _ => ⟨rfl, rfl, rfl, rfl⟩)
    (fun _ _ => ⟨rfl, rfl, rfl, rfl⟩) (fun _ _ => ⟨rfl, rfl, rfl, rfl⟩) mapping s

/-- Nothing is sent once the phases are over. -/
theorem settle (m : Migration σ) (p : Progressed σ) : Untouched p.1 (m.settle p) := by
  obtain ⟨run, events, files, path, settled, _, created⟩ := m.settle_frame p
  rw [settled]
  exact ⟨rfl, rfl, created, rfl⟩

end Untouched

/-- Batches were sent with a loader, and nothing else was done to the target. -/
structure Sends (loader : Loader (Target σ)) (bs : List Batch) (s t : MigrationState σ) :
    Prop where
  sent : t.sent = s.sent ++ bs
  delivered : (t.target, t.run.created) = bs.foldl loader.deliver (s.target, s.run.created)
  loader : t.loader = s.loader

namespace Sends

variable {loader : Loader (Target σ)}

theorem of_untouched {s t : MigrationState σ} (h : Untouched s t) : Sends loader [] s t :=
  ⟨h.sent.trans (List.append_nil _).symm, by rw [h.target, h.created]; rfl, h.loader⟩

theorem trans {bs cs : List Batch} {s t u : MigrationState σ} (h : Sends loader bs s t)
    (h' : Sends loader cs t u) : Sends loader (bs ++ cs) s u where
  sent := by rw [h'.sent, h.sent, List.append_assoc]
  delivered := by rw [h'.delivered, h.delivered, List.foldl_append]
  loader := h'.loader.trans h.loader

theorem untouched {bs : List Batch} {s t u : MigrationState σ} (h : Sends loader bs s t)
    (h' : Untouched t u) : Sends loader bs s u :=
  List.append_nil bs ▸ h.trans (of_untouched h')

theorem send (m : Migration σ) (loader : Loader (Target σ)) (s : MigrationState σ)
    (batch : Batch) :
    Sends loader [batch] s (m.send loader batch s).1 :=
  ⟨s.sent_note m (.load batch), rfl, rfl⟩

end Sends

/-- The working set stays as it is. -/
theorem Kept.working (m : Migration σ) :
    Kept m (fun s t : MigrationState σ => t.working = s.working) :=
  .unmoved m MigrationState.working fun _ _ _ _ _ _ _ => rfl

/-- The run is not completed if it was not. -/
def Uncompleted (s t : MigrationState σ) : Prop :=
  s.run.status ≠ .completed → t.run.status ≠ .completed

namespace Uncompleted

theorem goTo (m : Migration σ) (s : MigrationState σ) (next : RunStatus)
    (h : next ≠ .completed) :
    Uncompleted s (s.goTo m next).1 := by
  obtain ⟨run, changed, _, status⟩ := s.goTo_frame m next
  rw [changed]
  obtain status | status := status
  · exact fun _ => status ▸ h
  · exact fun own => status ▸ own

theorem kept (m : Migration σ) : Kept m (Uncompleted (σ := σ)) where
  refl _ := id
  trans h h' own := h' (h own)
  emit _ _ := id
  note _ _ _ := id
  newStep _ _ _ _ := id
  checkpoint s := by
    obtain ⟨run, control, changed, _, status⟩ := s.checkpoint_frame m
    rw [changed]
    obtain status | status := status
    · exact fun _ => by simp [status]
    · exact fun own => status ▸ own
  finishStep _ _ _ := id
  files _ _ := id

theorem prepare (m : Migration σ) (mapping : Mapping) (s : MigrationState σ) :
    Uncompleted s (m.prepare mapping s).1 :=
  (kept m).prepare (fun s next active => goTo m s next fun same => by
    simp [same, RunStatus.isActive] at active)
    (fun _ _ => id) (fun _ _ => id) (fun _ _ => id) mapping s

end Uncompleted

namespace Migration

variable (m : Migration σ)

/-- The batches of an entity. -/
def parcels (entity : String) (records : List TargetRecord) : List Batch :=
  (batches m.config.batchSize records).map fun part => ⟨entity, part, m.config.upsert⟩

/-- The batches of all entities. -/
def plan (working : List WorkingSet) (entities : List String) : List Batch :=
  entities.flatMap fun entity => m.parcels entity (m.recordsToLoad working entity)

theorem loadBatch_sends (loader : Loader (Target σ)) (entity : String) (total count : Nat)
    (w : Sending σ) (part : List TargetRecord) :
    Sends loader [⟨entity, part, m.config.upsert⟩] w.state
      (m.loadBatch loader entity total count w part).1.state := by
  have k := Untouched.kept m
  have sent := Sends.send m loader w.state ⟨entity, part, m.config.upsert⟩
  exact sent.untouched (k.trans (k.emit _ _) (k.andThen (k.checkBudget _ _) k.checkpoint))

/-- Loading records sends the first of their batches, and all of them if nothing stops it. -/
theorem loadRecords_sends (loader : Loader (Target σ)) (entity : String)
    (records : List TargetRecord) (s : MigrationState σ) (step : Step) :
    ∃ done rest, done ++ rest = m.parcels entity records ∧
      Sends loader done s (m.loadRecords loader entity records s step).1.state ∧
      ((m.loadRecords loader entity records s step).2 = none → rest = []) := by
  let boxed (part : List TargetRecord) : Batch := ⟨entity, part, m.config.upsert⟩
  obtain ⟨done, rest, whole, sends, all⟩ :=
    overBatches_prefix
      (R := fun done (v w : Sending σ) => Sends loader (done.map boxed) v.state w.state)
      (fun w => .of_untouched (.refl w.state)) (fun first next => first.trans next)
      (m.loadBatch_sends loader entity records.length
        (batchCount m.config.batchSize records.length))
      (batches m.config.batchSize records) { state := s, step }
  refine ⟨done.map boxed, rest.map boxed, ?_, sends, fun none => by rw [all none]; rfl⟩
  rw [← List.map_append, whole]
  rfl

theorem loadStep_sends (loader : Loader (Target σ)) (entity : String) (s : MigrationState σ) :
    ∃ done rest, done ++ rest = m.parcels entity (m.recordsToLoad s.working entity) ∧
      Sends loader done s (m.loadStep loader entity s).1 ∧
      ((m.loadStep loader entity s).2 = none → rest = []) := by
  let p := s.newStep m ("Load " ++ entity) entity .loading
  let records := m.recordsToLoad s.working entity
  let opened := { p.1 with loadedEntities := p.1.loadedEntities ++ [entity] }
  obtain ⟨done, rest, whole, sends, all⟩ := m.loadRecords_sends loader entity records opened
    { p.2 with skipped := (entityRecords s.working entity).length - records.length }
  have begins : Sends loader [] s opened := .of_untouched ⟨rfl, rfl, rfl, rfl⟩
  exact ⟨done, rest, whole, begins.trans (sends.untouched ((Untouched.kept m).endStep _ _ _)),
    all⟩

/-- Loading entities sends a prefix of the plan, and all of it if nothing stops it. -/
theorem loadAll_sends (loader : Loader (Target σ)) (entities : List String)
    (s : MigrationState σ) :
    ∃ done rest, done ++ rest = m.plan s.working entities ∧
      Sends loader done s (m.loadAll loader entities s).1 ∧
      ((m.loadAll loader entities s).2 = none → rest = []) := by
  induction entities generalizing s with
  | nil => exact ⟨[], [], rfl, .of_untouched (.refl s), fun _ => rfl⟩
  | cons entity entities ih =>
    obtain ⟨done, rest, whole, sends, all⟩ := m.loadStep_sends loader entity s
    have working := (Kept.working m).loadStep (fun _ _ _ => rfl) (fun _ _ => rfl) loader entity s
    have planned : m.plan s.working (entity :: entities) =
        m.parcels entity (m.recordsToLoad s.working entity) ++ m.plan s.working entities := rfl
    rw [planned]
    simp only [loadAll]
    revert sends all working
    generalize m.loadStep loader entity s = p
    obtain ⟨t, _ | e⟩ := p
    · intro sends all working
      obtain ⟨done', rest', whole', sends', all'⟩ := ih t
      refine ⟨done ++ done', rest', ?_, sends.trans sends', all'⟩
      rw [← whole, all rfl, List.append_nil, List.append_assoc, whole', working]
    · intro sends _ _
      refine ⟨done, rest ++ m.plan s.working entities, ?_, sends, fun none => nomatch none⟩
      rw [← whole, List.append_assoc]

/-- The state in which a loader is taken over. -/
def withLoader (loader : Loader (Target σ)) (s : MigrationState σ) : MigrationState σ :=
  { s with loader := some loader, target := { s.target with memory := [] } }

/-- The loading phase stops before it sends anything, or it sends a prefix of the plan. -/
theorem runLoading_sends (mapping : Mapping) (s : MigrationState σ) :
    (∃ e, m.runLoading mapping s = (s, some e)) ∨
    ∃ loader done rest, m.connectors.loader m.config = .ok loader ∧
      done ++ rest = m.plan s.working (loadEntities mapping s.working) ∧
      Sends loader done (withLoader loader s) (m.runLoading mapping s).1 ∧
      ((m.runLoading mapping s).2 = none → rest = []) := by
  simp only [runLoading]
  cases found : m.connectors.loader m.config with
  | error e => exact .inl ⟨_, rfl⟩
  | ok loader =>
    by_cases connected : loader.connected = true
    · simp only [connected, if_true]
      obtain ⟨done, rest, whole, sends, all⟩ := m.loadAll_sends loader
        (loadEntities mapping s.working) (withLoader loader s)
      exact .inr ⟨loader, done, rest, rfl, whole, sends, all⟩
    · simp only [connected]
      exact .inl ⟨_, rfl⟩

/-- The phases stop before anything is sent, or they send a prefix of the plan for the working set
that is ready when loading begins. -/
theorem phases_sends (mapping : Mapping) (s : MigrationState σ) :
    (∃ t e, m.phases mapping s = (t, some e) ∧ Untouched s t ∧ Uncompleted s t) ∨
    ∃ ready loader done rest, m.prepare mapping s = (ready, none) ∧
      m.connectors.loader m.config = .ok loader ∧
      done ++ rest = m.plan ready.working (loadEntities mapping ready.working) ∧
      Sends loader done (withLoader loader s) (m.phases mapping s).1 := by
  have untouched := Untouched.prepare m mapping s
  have uncompleted := Uncompleted.prepare m mapping s
  simp only [phases]
  generalize m.prepare mapping s = p at untouched uncompleted
  obtain ⟨ready, _ | e⟩ := p
  · have enters := Untouched.goTo m ready .loading
    have still := Uncompleted.goTo m ready .loading (by decide)
    obtain ⟨run, changed, _⟩ := ready.goTo_frame m .loading
    simp only [Progressed.andThen, phase]
    generalize ready.goTo m .loading = q at enters still changed
    obtain ⟨entered, _ | e⟩ := q
    · obtain ⟨e, stopped⟩ | ⟨loader, done, rest, connected, whole, sends, _⟩ :=
        m.runLoading_sends mapping entered
      · refine .inl ⟨entered, e, ?_, untouched.trans enters, fun own => still (uncompleted own)⟩
        simp only [stopped]
      · have working : entered.working = ready.working :=
          (congrArg MigrationState.working changed :)
        refine .inr ⟨ready, loader, done, rest, rfl, connected, working ▸ whole, ?_⟩
        have before := untouched.trans enters
        have target : entered.target = s.target := before.target
        have begins : Sends loader [] (withLoader loader s) (withLoader loader entered) :=
          .of_untouched ⟨before.sent, by simp only [withLoader, target], before.created, rfl⟩
        have ends := (Untouched.kept m).andThen (p := m.runLoading mapping entered) (.refl _)
          (fun t => Untouched.goTo m t .completed)
        exact (begins.trans sends).untouched ends
    · exact .inl ⟨entered, e, rfl, untouched.trans enters, fun own => still (uncompleted own)⟩
  · exact .inl ⟨ready, e, rfl, untouched, uncompleted⟩

/-- What a run has sent when its loading phase is over. -/
structure Delivery (s : MigrationState σ) (mapping : Mapping) (ready : MigrationState σ)
    (loader : Loader (Target σ)) (done rest : List Batch) : Prop where
  resolved : m.resolveMapping s = .ok mapping
  prepared : m.prepare mapping (adopt mapping (m.fresh s)) = (ready, none)
  connected : m.connectors.loader m.config = .ok loader
  whole : done ++ rest = m.plan ready.working (loadEntities mapping ready.working)
  sends : Sends loader done (withLoader loader (m.fresh s)) (m.run s)

theorem run_uncompleted {s t : MigrationState σ} {stop : Stop MigrationError}
    (executed : m.execute (m.fresh s) = (t, some stop)) (uncompleted : Uncompleted (m.fresh s) t) :
    (m.run s).run.status ≠ .completed := by
  have own : t.run.status ≠ .completed := uncompleted (by simp [fresh])
  rw [run, executed]
  obtain e | why := stop
  · obtain ⟨run, events, stopped, _, _, status⟩ := m.stop_frame t e
    obtain ⟨files, path, events', concluded⟩ := m.conclude_frame (m.stop t e)
    have ended : (m.settle (t, some (.error e))).run.status = run.status := by
      rw [settle, concluded, stopped]
      rfl
    rw [ended]
    obtain status | status | status := status
    · simp [status]
    · simp [status]
    · exact status ▸ own
  · exact own

/-- A run does not complete and sends nothing, or it comes to its loading phase and sends a prefix
of the plan. -/
theorem run_untouched_or_delivers (s : MigrationState σ) :
    (Untouched (m.fresh s) (m.run s) ∧ (m.run s).run.status ≠ .completed) ∨
    ∃ mapping ready loader done rest, m.Delivery s mapping ready loader done rest := by
  have ends := Untouched.settle m (m.execute (m.fresh s))
  have stopped : ∀ t e, m.execute (m.fresh s) = (t, some e) → Untouched (m.fresh s) t →
      Uncompleted (m.fresh s) t →
      Untouched (m.fresh s) (m.run s) ∧ (m.run s).run.status ≠ .completed := by
    intro t e executed before uncompleted
    rw [executed] at ends
    refine ⟨?_, m.run_uncompleted executed uncompleted⟩
    rw [run, executed]
    exact before.trans ends
  cases checked : m.config.check with
  | error e =>
    refine .inl (stopped (m.fresh s) (.error (.config e)) ?_ (.refl _) id)
    simp only [execute, checked]
  | ok _ =>
    cases resolved : m.resolveMapping s with
    | error e =>
      refine .inl (stopped (m.fresh s) (.error e) ?_ (.refl _) id)
      simp only [execute, checked, resolveMapping_fresh, resolved]
    | ok mapping =>
      let adopted := adopt mapping (m.fresh s)
      have same : Untouched (m.fresh s) adopted := ⟨rfl, rfl, rfl, rfl⟩
      have executed : m.execute (m.fresh s) =
          (m.preflight mapping adopted).andThen (m.phases mapping) := by
        simp only [execute, checked, resolveMapping_fresh, resolved, adopted]
      cases problems : mapping.entities.filterMap m.preflightProblem? with
      | cons _ _ =>
        simp only [preflight, problems, Progressed.andThen] at executed
        exact .inl (stopped adopted _ executed same id)
      | nil =>
        simp only [preflight, problems, Progressed.andThen] at executed
        obtain ⟨t, e, phases, untouched, uncompleted⟩ |
            ⟨ready, loader, done, rest, prepared, connected, whole, sends⟩ :=
          m.phases_sends mapping adopted
        · exact .inl (stopped t e (executed.trans phases) (same.trans untouched) uncompleted)
        · refine .inr ⟨mapping, ready, loader, done, rest, resolved, prepared, connected, whole, ?_⟩
          have begins : Sends loader [] (withLoader loader (m.fresh s))
              (withLoader loader adopted) := .of_untouched ⟨rfl, rfl, rfl, rfl⟩
          exact (begins.trans (executed ▸ sends)).untouched ends

end Migration

end DataMigration
