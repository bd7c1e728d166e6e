import DataMigration.Proofs.Mapping.DependencyOrder
import DataMigration.Proofs.Migration.Accounting
import DataMigration.Proofs.Migration.Ending
import DataMigration.Proofs.Migration.RollingBack

/-!
# The states between calls

A state is reached by runs and rollbacks, by records that are added by hand, and by what happens
outside in between. In each such state the run knows the entities that were loaded: each of them
once, and created ids for no others. If it is completed, that is the order of their steps.
-/

namespace DataMigration

variable {σ : Type}

/-- The entities that were loaded, in the order of their steps. -/
def Run.loaded (r : Run) : List String := (r.steps.filter (Step.begins "Load ")).map Step.entity

theorem Run.loaded_of_steps {r r' : Run} (same : r'.steps = r.steps) : r'.loaded = r.loaded := by
  rw [loaded, loaded, same]

/-- Entities were loaded: each of them has its step, unless the work came to a standstill, and ids
are noted as created for no others. -/
structure Loads (stop : Option (Stop MigrationError)) (entities : List String)
    (s t : MigrationState σ) : Prop where
  loadedEntities : t.loadedEntities = s.loadedEntities ++ entities
  steps : Stop.isOver stop = true → t.run.loaded = s.run.loaded ++ entities
  created : ∀ e ∈ t.run.created.keys, e ∈ s.run.created.keys ∨ e ∈ entities

namespace Loads

variable {stop : Option (Stop MigrationError)}

theorem of_same {s t : MigrationState σ} (loadedEntities : t.loadedEntities = s.loadedEntities)
    (steps : t.run.loaded = s.run.loaded) (created : t.run.created = s.run.created) :
    Loads stop [] s t where
  loadedEntities := by rw [loadedEntities, List.append_nil]
  steps _ := by rw [steps, List.append_nil]
  created e known := .inl (created ▸ known)

theorem trans {es es' : List String} {s t u : MigrationState σ} (h : Loads none es s t)
    (h' : Loads stop es' t u) : Loads stop (es ++ es') s u where
  loadedEntities := by rw [h'.loadedEntities, h.loadedEntities, List.append_assoc]
  steps back := by rw [h'.steps back, h.steps rfl, List.append_assoc]
  created e known := by
    obtain before | new := h'.created e known
    · exact (h.created e before).imp_right (List.mem_append_left es')
    · exact .inr (List.mem_append_right es new)

/-- The step of a state that has all its steps is missing at no stop. -/
theorem stopped {es : List String} {s t : MigrationState σ} (h : Loads none es s t) :
    Loads stop es s t := ⟨h.loadedEntities, fun _ => h.steps rfl, h.created⟩

theorem goTo (m : Migration σ) (s : MigrationState σ) (next : RunStatus) :
    Loads none [] s (s.goTo m next).1 := by
  obtain ⟨run, changed, account, _⟩ := s.goTo_frame m next
  rw [changed]
  exact of_same rfl (Run.loaded_of_steps account.steps) account.created

/-- The moves within a step load no other entity. -/
theorem kept (m : Migration σ) :
    KeptInside m (fun s t : MigrationState σ => Loads none [] s t) where
  refl _ := of_same rfl rfl rfl
  trans := trans
  emit _ _ := of_same rfl rfl rfl
  note _ _ _ := of_same rfl rfl rfl
  checkpoint s := by
    obtain ⟨run, control, changed, account, _⟩ := s.checkpoint_frame m
    rw [changed]
    exact of_same rfl (Run.loaded_of_steps account.steps) account.created
  files _ _ := of_same rfl rfl rfl

end Loads

/-- Loaded entities are noted in the loading phase only. -/
theorem Kept.loadedEntities (m : Migration σ) :
    Kept m (fun s t : MigrationState σ => t.loadedEntities = s.loadedEntities) :=
  .unmoved m MigrationState.loadedEntities fun _ _ _ _ _ _ _ => rfl

/-- A phase that adds steps of another kind loads nothing. -/
theorem Adds.loads {verb : String} {added : List Step} {s t : MigrationState σ}
    (adds : Adds verb added s t) (apart : ¬ verb.toList <+: "Load ".toList)
    (apart' : ¬ "Load ".toList <+: verb.toList) (untouched : Untouched s t)
    (loadedEntities : t.loadedEntities = s.loadedEntities) : Loads none [] s t := by
  have others : added.filter (Step.begins "Load ") = [] := by
    refine List.filter_eq_nil_iff.2 fun step member loads => ?_
    rw [Step.begins_eq_false (adds.named step member) apart apart'] at loads
    cases loads
  refine .of_same loadedEntities ?_ untouched.created
  rw [Run.loaded, adds.steps, List.filter_append, others, List.append_nil]
  rfl

namespace Migration

variable (m : Migration σ)

/-- Nothing is loaded before the loading phase. -/
theorem prepare_loads (mapping : Mapping) (s : MigrationState σ) :
    Loads none [] s (m.prepare mapping s).1 := by
  have k := Loads.kept m
  have extracts : ∀ s, Loads none [] s (m.runExtraction s).1 := by
    intro s
    obtain ⟨added, adds⟩ := m.extractAll_adds m.config.sources [] s
    exact adds.loads (by decide) (by decide)
      ((Untouched.kept m).runExtraction (fun _ _ => ⟨rfl, rfl, rfl, rfl⟩) s)
      ((Kept.loadedEntities m).runExtraction (fun _ _ => rfl) s)
  have transforms : ∀ s, Loads none [] s (m.runTransformation mapping s).1 := by
    intro s
    obtain ⟨added, adds, _⟩ := m.runTransformation_adds mapping s
    exact adds.loads (by decide) (by decide)
      ((Untouched.kept m).runTransformation (fun _ _ => ⟨rfl, rfl, rfl, rfl⟩)
        (fun _ _ => ⟨rfl, rfl, rfl, rfl⟩) mapping s)
      ((Kept.loadedEntities m).runTransformation (fun _ _ => rfl) (fun _ _ => rfl) mapping s)
  have validates : ∀ s, Loads none [] s (m.runValidation s).1 := by
    intro s
    obtain ⟨added, adds, _⟩ := m.runValidation_adds s
    exact adds.loads (by decide) (by decide)
      ((Untouched.kept m).runValidation (fun _ _ => ⟨rfl, rfl, rfl, rfl⟩) s)
      ((Kept.loadedEntities m).runValidation (fun _ _ => rfl) s)
  have extracted := k.andThen (Loads.goTo m s .extracting) extracts
  have transformed := k.andThen extracted fun s => k.andThen (Loads.goTo m s .transforming)
    transforms
  exact k.andThen transformed fun s => k.andThen (Loads.goTo m s .validating) validates

/-! ## Loading -/

/-- What the work on the batches of an entity changes. -/
structure Fills (e : String) (v w : Sending σ) : Prop where
  name : w.step.name = v.step.name
  entity : w.step.entity = v.step.entity
  created : ∀ e' ∈ w.state.run.created.keys, e' ∈ v.state.run.created.keys ∨ e' = e

theorem loadBatch_fills (loader : Loader (Target σ)) (entity : String) (total count : Nat)
    (w : Sending σ) (part : List TargetRecord) :
    Fills entity w (m.loadBatch loader entity total count w part).1 where
  name := rfl
  entity := rfl
  created e known := by
    have sends := (m.loadBatch_sends loader entity total count w part).delivered
    have noted := congrArg Prod.snd sends
    simp only at noted
    rw [noted] at known
    exact (Dict.mem_keys_insert.1 known).symm

theorem loadRecords_fills (loader : Loader (Target σ)) (entity : String)
    (records : List TargetRecord) (s : MigrationState σ) (step : Step) :
    Fills entity { state := s, step } (m.loadRecords loader entity records s step).1 := by
  refine overBatches_keeps (R := Fills entity) (fun _ => ⟨rfl, rfl, fun _ => .inl⟩) ?_ _
    (fun w part _ => m.loadBatch_fills loader entity _ _ w part) _
  intro u v w h h'
  refine ⟨h'.name.trans h.name, h'.entity.trans h.entity, fun e known => ?_⟩
  obtain before | own := h'.created e known
  · exact h.created e before
  · exact .inr own

theorem loadStep_loads (loader : Loader (Target σ)) (entity : String) (s : MigrationState σ) :
    Loads (m.loadStep loader entity s).2 [entity] s (m.loadStep loader entity s).1 := by
  let records := m.recordsToLoad s.working entity
  let begun := m.beginLoad entity s
  have fills := m.loadRecords_fills loader entity records begun.1 begun.2
  have steps := (KeptInside.steps m).loadRecords (fun _ _ _ => rfl) loader entity records begun.1
    begun.2
  have noted := (Kept.loadedEntities m).loadRecords (fun _ _ _ => rfl) loader entity records
    begun.1 begun.2
  rw [loadStep_eq]
  simp only at steps ⊢
  generalize m.loadRecords loader entity records begun.1 begun.2 = q at fills noted steps
  obtain ⟨w, stop⟩ := q
  refine ⟨?_, fun back => ?_, fun e known => ?_⟩
  · rw [MigrationState.endStep_unmoved m MigrationState.loadedEntities (fun _ _ _ => rfl)]
    exact noted
  · have closed : ((w.step.ended m.now stop).filter (Step.begins "Load ")).map Step.entity =
        [entity] := by
      obtain ⟨outcome, ended⟩ := Step.ended_of_isOver w.step m.now back
      have named : (w.step.closed outcome m.now).begins "Load " = true :=
        Step.begins_of_name entity fills.name
      rw [ended, List.filter_cons_of_pos named]
      exact congrArg (fun e => [e]) fills.entity
    rw [Run.loaded, MigrationState.endStep_steps, steps, List.filter_append, List.map_append,
      closed]
    rfl
  · rw [MigrationState.endStep_created] at known
    exact (fills.created e known).imp_right List.mem_singleton.2

/-- Work on entities that is stopped has loaded the first of them. -/
theorem loadAll_loads (loader : Loader (Target σ)) (entities : List String)
    (s : MigrationState σ) :
    ∃ done, done <+: entities ∧
      Loads (m.loadAll loader entities s).2 done s (m.loadAll loader entities s).1 := by
  induction entities generalizing s with
  | nil => exact ⟨[], List.prefix_refl _, (Loads.kept m).refl s⟩
  | cons entity rest ih =>
    have first := m.loadStep_loads loader entity s
    simp only [loadAll]
    generalize m.loadStep loader entity s = p at first
    obtain ⟨t, _ | stop⟩ := p
    · obtain ⟨done, begins, others⟩ := ih t
      exact ⟨entity :: done, List.cons_prefix_cons.2 ⟨rfl, begins⟩, first.trans others⟩
    · exact ⟨[entity], List.cons_prefix_cons.2 ⟨rfl, List.nil_prefix⟩, first⟩

/-- No entity is loaded twice. -/
theorem runLoading_loads (mapping : Mapping) (s : MigrationState σ) :
    ∃ done, done.Nodup ∧
      Loads (m.runLoading mapping s).2 done s (m.runLoading mapping s).1 := by
  have nothing := (Loads.kept m).refl s
  simp only [runLoading]
  split
  · exact ⟨[], List.nodup_nil, nothing.stopped⟩
  · rename_i loader _
    split
    · obtain ⟨done, begins, loads⟩ := m.loadAll_loads loader (loadEntities mapping s.working)
        (withLoader loader s)
      have once : (loadEntities mapping s.working).Nodup := Mapping.nodup_firsts _
      refine ⟨done, begins.sublist.nodup once, ?_⟩
      exact ⟨loads.loadedEntities, loads.steps, loads.created⟩
    · exact ⟨[], List.nodup_nil, nothing.stopped⟩

theorem phases_loads (mapping : Mapping) (s : MigrationState σ) :
    ∃ done, done.Nodup ∧ Loads (m.phases mapping s).2 done s (m.phases mapping s).1 := by
  have prepared := m.prepare_loads mapping s
  simp only [phases]
  generalize m.prepare mapping s = p at prepared
  obtain ⟨ready, _ | stop⟩ := p
  · have enters := prepared.trans (Loads.goTo m ready .loading)
    simp only [Progressed.andThen, phase]
    generalize ready.goTo m .loading = q at enters
    obtain ⟨entered, _ | stop⟩ := q
    · obtain ⟨done, once, loads⟩ := m.runLoading_loads mapping entered
      have loads := enters.trans loads
      simp only
      generalize m.runLoading mapping entered = r at loads
      obtain ⟨loaded, _ | stop⟩ := r
      · have whole : Loads (loaded.goTo m .completed).2 (done ++ []) s
            (loaded.goTo m .completed).1 := loads.trans (Loads.goTo m loaded .completed).stopped
        exact ⟨done, once, List.append_nil done ▸ whole⟩
      · exact ⟨done, once, loads⟩
    · exact ⟨[], List.nodup_nil, enters.stopped⟩
  · exact ⟨[], List.nodup_nil, prepared.stopped⟩

theorem execute_loads (s : MigrationState σ) :
    ∃ done, done.Nodup ∧ Loads (m.execute s).2 done s (m.execute s).1 := by
  have nothing : ∀ {t : MigrationState σ} {stop}, t.loadedEntities = s.loadedEntities →
      t.run.loaded = s.run.loaded → t.run.created = s.run.created →
      ∃ done : List String, done.Nodup ∧ Loads stop done s t :=
    fun noted steps created => ⟨[], List.nodup_nil, .of_same noted steps created⟩
  simp only [execute]
  split
  · exact nothing rfl rfl rfl
  · split
    · exact nothing rfl rfl rfl
    · rename_i mapping _
      simp only [preflight]
      split
      · obtain ⟨done, once, loads⟩ := m.phases_loads mapping (adopt mapping s)
        exact ⟨done, once, ⟨loads.loadedEntities, loads.steps, loads.created⟩⟩
      · exact nothing rfl rfl rfl

/-! ## Pauses -/

theorem goTo_pausedFrom (s : MigrationState σ) (next : RunStatus)
    (forward : s.run.pausedFrom ≠ some .rollingBack) :
    (s.goTo m next).1.run.pausedFrom ≠ some .rollingBack := by
  unfold MigrationState.goTo
  split
  · rename_i goes
    exact Run.goTo?_pausedFrom goes
  · exact forward

theorem heed_pausedFrom (s : MigrationState σ) (forward : s.run.pausedFrom ≠ some .rollingBack) :
    (s.heed m).1.run.pausedFrom ≠ some .rollingBack := by
  simp only [MigrationState.heed]
  split
  · exact forward
  · exact forward
  · have paused := m.goTo_pausedFrom { s with control := s.control.look } .paused forward
    generalize MigrationState.goTo m { s with control := s.control.look } .paused = p at paused
    obtain ⟨t, _ | stop⟩ := p
    · simp only [Progressed.andThen]
      split
      · exact paused
      · split
        · exact paused
        · exact m.goTo_pausedFrom _ _ paused
    · exact paused

theorem pausedFrom_kept :
    Kept m (fun s t : MigrationState σ =>
      s.run.pausedFrom ≠ some .rollingBack → t.run.pausedFrom ≠ some .rollingBack) where
  refl _ := id
  trans first next := next ∘ first
  emit _ _ := id
  note _ _ _ := id
  newStep _ _ _ _ := id
  checkpoint s := m.heed_pausedFrom (s.note m .checkpoint)
  finishStep _ _ _ := id
  files _ _ := id

theorem run_pausedFrom (s : MigrationState σ) :
    (m.run s).run.pausedFrom ≠ some .rollingBack := by
  have worked : (m.execute (m.fresh s)).1.run.pausedFrom ≠ some .rollingBack :=
    m.pausedFrom_kept.execute (fun s next _ => m.goTo_pausedFrom s next) (fun _ _ => id)
      (fun _ _ => id) (fun _ _ => id) (fun _ _ _ => id) (fun _ _ => id) (fun _ _ => id)
      (fun s => m.goTo_pausedFrom s .completed) (fun _ _ => id) (m.fresh s)
      (Option.some_ne_none _).symm
  have concludes (t : MigrationState σ) (forward : t.run.pausedFrom ≠ some .rollingBack) :
      (m.conclude t).run.pausedFrom ≠ some .rollingBack := by
    obtain ⟨files, path, events, concluded⟩ := m.conclude_frame t
    rw [concluded]
    exact forward
  rw [Migration.run]
  revert worked
  generalize m.execute (m.fresh s) = p
  obtain ⟨t, _ | ⟨e⟩ | ⟨why⟩⟩ := p
  · exact concludes t
  · refine fun forward => concludes (m.stop t e) ?_
    simp only [Migration.stop]
    split
    · exact m.goTo_pausedFrom t .cancelled forward
    · exact m.goTo_pausedFrom _ .failed forward
  · exact id

end Migration

namespace MigrationState

/-- What is known between calls of the entities that the run has loaded. -/
structure AtRest (s : MigrationState σ) : Prop where
  /-- Only a completed run can be rolled back. -/
  forward : s.run.pausedFrom ≠ some .rollingBack
  loader : s.run.status = .completed → ∃ loader, s.loader = some loader
  steps : s.run.status = .completed → s.run.loaded = s.loadedEntities
  once : s.loadedEntities.Nodup
  created : ∀ e ∈ s.run.created.keys, e ∈ s.loadedEntities

/-- The states that calls lead to. Between two calls a mapping may be given, requests may come, and
the files and the target may change. -/
inductive Reachable : MigrationState σ → Prop
  | initial (m : Migration σ) (target : σ) : Reachable (m.initial target)
  | meanwhile {s : MigrationState σ} (h : Reachable s) (mapping : Option Mapping)
      (control : Control) (files : Files) (target : Target σ) (events : List ProgressEvent) :
      Reachable { s with mapping, control, files, target, events }
  | addSourceData (m : Migration σ) {s : MigrationState σ} (h : Reachable s)
      (service entity : String) (payloads : List Value) :
      Reachable (m.addSourceData service entity payloads s)
  | run (m : Migration σ) {s : MigrationState σ} (h : Reachable s) : Reachable (m.run s)
  | rollback (m : Migration σ) {s : MigrationState σ} (h : Reachable s) :
      Reachable (m.rollback s).1

end MigrationState

namespace Migration

/-- This is known after a run, whatever was before. -/
theorem run_atRest (m : Migration σ) (s : MigrationState σ) : (m.run s).AtRest := by
  obtain ⟨done, once, loads⟩ := m.execute_loads (m.fresh s)
  obtain ⟨run, events, files, path, ran, steps, created⟩ := m.run_frame s
  have noted : (m.run s).loadedEntities = done := by
    rw [ran]
    exact loads.loadedEntities
  refine ⟨m.run_pausedFrom s, fun completed => ?_, fun completed => ?_, noted ▸ once,
    fun e known => ?_⟩
  · obtain ⟨_, uncompleted⟩ | ⟨_, _, loader, _, _, delivery⟩ := m.run_untouched_or_delivers s
    · exact absurd completed uncompleted
    · exact ⟨loader, delivery.sends.loader⟩
  · have back : Stop.isOver (m.execute (m.fresh s)).2 = true := by
      rw [execute_of_completed completed]
      rfl
    rw [noted, ran, Run.loaded_of_steps steps]
    exact loads.steps back
  · rw [noted]
    rw [ran] at known
    obtain before | own := loads.created e (created ▸ known)
    · exact nomatch before
    · exact own

/-- A rollback leaves the run as it is, or rolled back with what it had loaded and created. -/
theorem rollback_atRest (m : Migration σ) {s : MigrationState σ} (rests : s.AtRest) :
    (m.rollback s).1.AtRest := by
  by_cases completed : s.run.status = .completed
  · obtain ⟨loader, found⟩ := rests.loader completed
    obtain ⟨run, files, path, rolled, status, _, created, forward⟩ :=
      m.rollback_of_completed completed found
    rw [rolled]
    refine ⟨forward, by simp [status], by simp [status], rests.once, created ▸ rests.created⟩
  · obtain ⟨e, refused⟩ := m.rollback_refused rests.forward (.inr completed)
    rw [refused]
    exact rests

end Migration

theorem MigrationState.Reachable.atRest {s : MigrationState σ} (h : s.Reachable) : s.AtRest := by
  induction h with
  | initial m target =>
    exact ⟨by simp [Migration.initial], by simp [Migration.initial], fun _ => rfl, List.nodup_nil,
      fun _ none => nomatch none⟩
  | meanwhile h mapping control files target events rests =>
    exact ⟨rests.forward, rests.loader, rests.steps, rests.once, rests.created⟩
  | addSourceData m h service entity payloads rests =>
    exact ⟨rests.forward, rests.loader, rests.steps, rests.once, rests.created⟩
  | run m h rests => exact m.run_atRest _
  | rollback m h rests => exact m.rollback_atRest rests

end DataMigration
