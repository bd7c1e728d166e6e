import DataMigration.Proofs.Migration.Conservation
import DataMigration.Proofs.Migration.Origins
import DataMigration.Proofs.Migration.Twin

/-!
# Running a migration again

A run begins with a new account, with no failures and with empty working sets, so nothing that an
earlier run left there matters to it. What an earlier run extracted is still kept, and the sources
add to it once more. So a migration that is run again repeats what it did if and only if its sources
gave no records to its entity mappings.
-/

namespace DataMigration

variable {σ : Type}

/-- What a second run has in common with the first, which began at a state, when it repeats it. -/
structure Repeats (s first second : MigrationState σ) : Prop where
  status : second.run.status = first.run.status
  steps : second.run.steps.map Step.account = first.run.steps.map Step.account
  created : second.run.created = first.run.created
  sent : ∃ bs, first.sent = s.sent ++ bs ∧ second.sent = first.sent ++ bs

theorem Twin.repeats {s first second : MigrationState σ}
    (h : Twin s.sent first.sent first second) : Repeats s first second where
  status := congrArg Course.status h.course
  steps := congrArg Course.steps h.course
  created := congrArg Course.created h.course
  sent := h.sent

/-- Steps are added to a run and stay there. -/
theorem Kept.stepsGrow (m : Migration σ) :
    Kept m (fun s t : MigrationState σ => s.run.steps <+: t.run.steps) where
  refl _ := List.prefix_rfl
  trans h h' := h.trans h'
  emit _ _ := List.prefix_rfl
  note _ _ _ := List.prefix_rfl
  checkpoint s := by
    rw [(KeptInside.steps m).checkpoint s]
  files _ _ := List.prefix_rfl
  newStep _ _ _ _ := List.prefix_rfl
  finishStep s step stop := by
    rw [s.finishStep_steps m]
    exact List.prefix_append _ _

namespace Migration

variable (m : Migration σ)

/-- Runs the migration once more, with the target as it was before the first run. -/
def again (s : MigrationState σ) : MigrationState σ :=
  m.run { m.run s with target := s.target }

/-- A run with a mapping once its records are transformed. -/
def fromValidating (mapping : Mapping) (s : MigrationState σ) : Progressed σ :=
  ((m.phase .validating m.runValidation s).andThen
    (m.phase .loading (m.runLoading mapping))).andThen fun s => s.goTo m .completed

/-- A run with a mapping from the point where its transformation begins. -/
def fromTransforming (mapping : Mapping) (s : MigrationState σ) : Progressed σ :=
  (m.runTransformation mapping s).andThen (m.fromValidating mapping)

theorem phases_eq_beginTransforming (mapping : Mapping) (s : MigrationState σ) :
    m.phases mapping (adopt mapping (m.fresh s)) =
      (m.beginTransforming mapping s).andThen (m.fromTransforming mapping) := by
  unfold phases prepare beginTransforming fromTransforming fromValidating phase
  simp only [Progressed.andThen_assoc]

/-- What all moves of validating and loading keep, and going to another status too. -/
theorem fromValidating_keeps {m : Migration σ} {R : MigrationState σ → MigrationState σ → Prop}
    (k : Kept m R) (enter : ∀ (s : MigrationState σ) next, R s (s.goTo m next).1)
    (working : ∀ (s : MigrationState σ) ws, R s { s with working := ws })
    (send : ∀ (s : MigrationState σ) loader batch, R s (m.send loader batch s).1)
    (loadedEntities : ∀ (s : MigrationState σ) es, R s { s with loadedEntities := es })
    (loader : ∀ (s : MigrationState σ) l, R s { s with
      loader := some l, target := { s.target with memory := [] } })
    (mapping : Mapping) (s : MigrationState σ) : R s (m.fromValidating mapping s).1 := by
  have validated := k.andThen (enter s .validating) (k.runValidation working)
  have loaded := k.andThen validated fun s =>
    k.andThen (enter s .loading) (k.runLoading send loadedEntities loader mapping)
  exact k.andThen loaded fun s => enter s .completed

/-- Once its records are transformed, a run adds steps at most. -/
theorem steps_fromValidating (mapping : Mapping) (s : MigrationState σ) :
    s.run.steps <+: (m.fromValidating mapping s).1.run.steps :=
  fromValidating_keeps (Kept.stepsGrow m)
    (fun s next => by
      obtain ⟨run, changed, account, _⟩ := s.goTo_frame m next
      rw [changed, account.steps])
    (fun _ _ => List.prefix_rfl) (fun _ _ _ => List.prefix_rfl) (fun _ _ => List.prefix_rfl)
    (fun _ _ => List.prefix_rfl) mapping s

theorem extracted_fromTransforming (mapping : Mapping) (s : MigrationState σ) :
    (m.fromTransforming mapping s).1.extracted = s.extracted :=
  have k := Kept.extracted m
  k.andThen (k.runTransformation (fun _ _ => rfl) (fun _ _ => rfl) mapping s)
    (fromValidating_keeps k m.extracted_goTo (fun _ _ => rfl) (fun _ _ _ => rfl) (fun _ _ => rfl)
      (fun _ _ => rfl) mapping)

/-- What the sources of a run gave stands behind what was kept before, however far it came. -/
theorem held_phases (mapping : Mapping) (s : MigrationState σ) (key : String) :
    (m.phases mapping (adopt mapping (m.fresh s))).1.held key =
      s.held key ++ gathered (·.key == key) (m.readings mapping s) := by
  have k := (Kept.extracted m).toKeptInside
  have afterwards (p : Progressed σ) : ((p.andThen fun s => s.goTo m .transforming).andThen
      (m.fromTransforming mapping)).1.extracted = p.1.extracted :=
    k.andThen (k.andThen (k.refl p.1) fun t => m.extracted_goTo t .transforming)
      (m.extracted_fromTransforming mapping)
  have ends : (m.phases mapping (adopt mapping (m.fresh s))).1.held key =
      (m.phase .extracting m.runExtraction (adopt mapping (m.fresh s))).1.held key := by
    rw [phases_eq_beginTransforming]
    exact MigrationState.held_congr (afterwards _) key
  exact ends.trans (m.held_extracting mapping s key)

/-! ## Two runs with the same readings -/

theorem phase_twin {before before' : List Batch} {s s' : MigrationState σ} (status : RunStatus)
    {work : MigrationState σ → Progressed σ}
    (works : ∀ t t', Twin before before' t t' → Together (Twin before before') (work t) (work t'))
    (h : Twin before before' s s') :
    Together (Twin before before') (m.phase status work s) (m.phase status work s') :=
  (h.goTo status).andThen works

/-- Two runs on the same target begin at the same point. -/
theorem fresh_twin {s s' : MigrationState σ} (running : s.control.signal = .running)
    (running' : s'.control.signal = .running) (target : s'.target = s.target) :
    Twin s.sent s'.sent (m.fresh s) (m.fresh s') where
  course := by
    simp only [MigrationState.course, fresh, target]
  sent := ⟨[], (List.append_nil _).symm, (List.append_nil _).symm⟩
  running := running
  running' := running'

section

variable {m : Migration σ} {mapping : Mapping} {s s' t t' : MigrationState σ}
  {before before' : List Batch} (unasked : m.Unasked)
include unasked

/-- Two runs from the point where their transformations begin. -/
theorem fromTransforming_twin (h : Twin before before' s s')
    (same : ∀ em ∈ mapping.entities, s'.held em.source.key = s.held em.source.key) :
    Together (Twin before before') (m.fromTransforming mapping s)
      (m.fromTransforming mapping s') := by
  have transforming := runTransformation_twin unasked mapping h same
  refine transforming.andThen fun t t' twin => ?_
  have validating := m.phase_twin .validating
    (fun _ _ twin => runValidation_twin unasked twin) twin
  have loading := validating.andThen fun t t' twin =>
    m.phase_twin .loading (fun _ _ twin => runLoading_twin unasked mapping twin) twin
  exact loading.andThen fun t t' twin => twin.goTo .completed

variable (running : s.control.signal = .running) (running' : s'.control.signal = .running)
  (target : s'.target = s.target)
include running running' target

/-- Two runs up to the point where their transformations begin. -/
theorem beginTransforming_twin (same : m.readings mapping s' = m.readings mapping s) :
    Together (Twin s.sent s'.sent) (m.beginTransforming mapping s)
      (m.beginTransforming mapping s') := by
  have adopted : Twin s.sent s'.sent (adopt mapping (m.fresh s)) (adopt mapping (m.fresh s')) :=
    (m.fresh_twin running running' target).map id rfl rfl rfl rfl rfl rfl
  have extracting : Together (Twin s.sent s'.sent)
      (m.phase .extracting m.runExtraction (adopt mapping (m.fresh s)))
      (m.phase .extracting m.runExtraction (adopt mapping (m.fresh s'))) := by
    have entered := adopted.goTo (m := m) .extracting
    unfold readings at same
    unfold phase
    revert entered same
    generalize (adopt mapping (m.fresh s)).goTo m .extracting = p,
      (adopt mapping (m.fresh s')).goTo m .extracting = p'
    obtain ⟨t, _⟩ := p
    obtain ⟨t', stop⟩ := p'
    rintro same ⟨twin, rfl : stop = _⟩
    cases stop with
    | none => exact extractAll_twin unasked m.config.sources [] [] twin same
    | some e => exact ⟨twin, rfl⟩
  exact extracting.andThen fun t t' twin => twin.goTo .transforming

/-- Two runs with the same mapping on the same target do the same as far as they go, if their
sources give the same and what is kept for the entity mappings is the same. -/
theorem execute_twin (resolved : m.resolveMapping s = .ok mapping)
    (resolved' : m.config.check = .ok () → m.resolveMapping s' = .ok mapping)
    (same : m.readings mapping s' = m.readings mapping s)
    (kept : ∀ em ∈ mapping.entities, s'.held em.source.key = s.held em.source.key) :
    Together (Twin s.sent s'.sent) (m.execute (m.fresh s)) (m.execute (m.fresh s')) := by
  have resolves : m.resolveMapping (m.fresh s) = .ok mapping := resolved
  have resolves' : m.config.check = .ok () → m.resolveMapping (m.fresh s') = .ok mapping :=
    resolved'
  have fresh := m.fresh_twin running running' target
  have phases : Together (Twin s.sent s'.sent) (m.phases mapping (adopt mapping (m.fresh s)))
      (m.phases mapping (adopt mapping (m.fresh s'))) := by
    have begins := beginTransforming_twin unasked running running' target same
    have held := fun t (h : m.beginTransforming mapping s = (t, none)) =>
      m.held_beginTransforming h
    have held' := fun t (h : m.beginTransforming mapping s' = (t, none)) =>
      m.held_beginTransforming h
    rw [phases_eq_beginTransforming, phases_eq_beginTransforming]
    revert begins held held'
    generalize m.beginTransforming mapping s = p, m.beginTransforming mapping s' = p'
    obtain ⟨t, _⟩ := p
    obtain ⟨t', stop⟩ := p'
    rintro ⟨twin, rfl : stop = _⟩ held held'
    cases stop with
    | none =>
      -- both have added the same readings to what they had kept before
      refine fromTransforming_twin unasked twin fun em member => ?_
      rw [held t rfl, held' t' rfl, same, kept em member]
    | some e => exact ⟨twin, rfl⟩
  unfold execute
  cases checked : m.config.check with
  | error e => exact ⟨fresh, rfl⟩
  | ok _ =>
    simp only [resolves, resolves' checked, preflight]
    cases mapping.entities.filterMap m.preflightProblem? with
    | nil => exact phases
    | cons problem problems => exact ⟨fresh.map id rfl rfl rfl rfl rfl rfl, rfl⟩

end

theorem conclude_twin {before before' : List Batch} {s s' : MigrationState σ}
    (h : Twin before before' s s') : Twin before before' (m.conclude s) (m.conclude s') := by
  obtain ⟨files, reportPath, events, ends⟩ := m.conclude_frame s
  obtain ⟨files', reportPath', events', ends'⟩ := m.conclude_frame s'
  rw [ends, ends']
  exact h.map id rfl rfl rfl rfl rfl rfl

/-- The same error stops two runs alike. -/
theorem stop_twin {before before' : List Batch} {s s' : MigrationState σ}
    (h : Twin before before' s s') (e : MigrationError) :
    Twin before before' (m.stop s e) (m.stop s' e) := by
  simp only [stop]
  by_cases cancelled : e.isCancel = true
  · rw [if_pos cancelled, if_pos cancelled]
    exact (h.goTo .cancelled).results
  · rw [if_neg cancelled, if_neg cancelled]
    refine (Twin.goTo ?_ .failed).results
    exact h.map id rfl rfl rfl rfl rfl rfl

/-- Two runs are brought to their ends alike, or stay at the same standstill. -/
theorem settle_twin {before before' : List Batch} {p p' : Progressed σ}
    (h : Together (Twin before before') p p') :
    Twin before before' (m.settle p) (m.settle p') := by
  obtain ⟨s, _⟩ := p
  obtain ⟨s', stop⟩ := p'
  obtain ⟨twin, rfl : stop = _⟩ := h
  obtain _ | e | why := stop
  · exact m.conclude_twin twin
  · exact m.conclude_twin (m.stop_twin twin e)
  · exact twin

/-- Two runs with the same mapping on the same target do the same, if their sources give the same
and what is kept for the entity mappings is the same. -/
theorem run_twin {mapping : Mapping} {s s' : MigrationState σ} (unasked : m.Unasked)
    (running : s.control.signal = .running) (running' : s'.control.signal = .running)
    (target : s'.target = s.target) (resolved : m.resolveMapping s = .ok mapping)
    (resolved' : m.config.check = .ok () → m.resolveMapping s' = .ok mapping)
    (same : m.readings mapping s' = m.readings mapping s)
    (kept : ∀ em ∈ mapping.entities, s'.held em.source.key = s.held em.source.key) :
    Twin s.sent s'.sent (m.run s) (m.run s') :=
  m.settle_twin (execute_twin unasked running running' target resolved resolved' same kept)

/-! ## What a run leaves for the next -/

theorem execute_eq {mapping : Mapping} {s : MigrationState σ}
    (resolved : m.resolveMapping s = .ok mapping) (checked : m.config.check = .ok ()) :
    m.execute (m.fresh s) = (adopt mapping (m.fresh s), (m.execute (m.fresh s)).2) ∨
      m.execute (m.fresh s) = m.phases mapping (adopt mapping (m.fresh s)) := by
  have resolves : m.resolveMapping (m.fresh s) = .ok mapping := resolved
  simp only [execute, checked, resolves, preflight]
  cases mapping.entities.filterMap m.preflightProblem? with
  | nil => exact .inr rfl
  | cons problem problems => exact .inl rfl

/-- The next run has the mapping of this one. -/
theorem resolveMapping_run {mapping : Mapping} {s : MigrationState σ}
    (resolved : m.resolveMapping s = .ok mapping) (checked : m.config.check = .ok ()) :
    (m.run s).mapping = some mapping := by
  obtain ⟨run, events, files, reportPath, changed, _⟩ := m.run_frame s
  have keeps : Kept m (fun s t : MigrationState σ => t.mapping = s.mapping) :=
    .unmoved m MigrationState.mapping fun _ _ _ _ _ _ _ => rfl
  have entered (s : MigrationState σ) (next : RunStatus) :
      (s.goTo m next).1.mapping = s.mapping :=
    s.goTo_unmoved m MigrationState.mapping (fun _ _ => rfl) next
  have phases := keeps.phases (fun s next _ => entered s next) (fun _ _ => rfl) (fun _ _ => rfl)
    (fun _ _ => rfl) (fun _ _ _ => rfl) (fun _ _ => rfl) (fun _ _ => rfl)
    (fun s => entered s .completed) mapping (adopt mapping (m.fresh s))
  have executed : (m.execute (m.fresh s)).1.mapping = some mapping := by
    obtain early | through := m.execute_eq resolved checked
    · rw [early]
      rfl
    · rw [through]
      exact phases
  rw [changed]
  exact executed

theorem held_run (s : MigrationState σ) (key : String) :
    (m.run s).held key = (m.execute (m.fresh s)).1.held key := by
  obtain ⟨run, events, files, reportPath, changed, _⟩ := m.run_frame s
  rw [changed]
  rfl

/-- Where the sources gave nothing, a run leaves what was kept before. -/
theorem held_run_of_nil {mapping : Mapping} {s : MigrationState σ} {key : String}
    (resolved : m.resolveMapping s = .ok mapping)
    (none : gathered (·.key == key) (m.readings mapping s) = []) :
    (m.run s).held key = s.held key := by
  rw [held_run]
  cases checked : m.config.check with
  | error e =>
    simp only [execute, checked]
    rfl
  | ok _ =>
    obtain early | through := m.execute_eq resolved checked
    · rw [early]
      rfl
    · rw [through, held_phases, none, List.append_nil]

/-- The account of a run that completes: the steps up to its transformation, one step for each
entity mapping that counts the records kept for it, and others. -/
theorem completed_steps {mapping : Mapping} {s : MigrationState σ}
    (resolved : m.resolveMapping s = .ok mapping)
    (completed : (m.run s).run.status = .completed) :
    m.config.check = .ok () ∧ ∃ t added more, m.beginTransforming mapping s = (t, none) ∧
      (m.run s).run.steps = t.run.steps ++ (added ++ more) ∧
      amounts Step.processed added = sourceSizes t mapping.entities ∧
      ∀ key, (m.run s).held key = t.held key := by
  obtain ⟨mapping', u, checked, resolved', phases, executed⟩ := completed_phases m s completed
  obtain rfl : mapping' = mapping := Except.ok.inj (resolved'.symm.trans resolved)
  rw [phases_eq_beginTransforming] at phases
  obtain ⟨t, begun, goesOn⟩ := Progressed.andThen_eq_none_iff.1 phases
  obtain ⟨v, transformed, validates⟩ := Progressed.andThen_eq_none_iff.1 goesOn
  obtain ⟨added, adds, _, all⟩ := m.runTransformation_adds mapping' t
  obtain ⟨run, events, files, reportPath, changed, steps, _⟩ := m.run_frame s
  obtain ⟨more, later⟩ := m.steps_fromValidating mapping' v
  have kept := m.extracted_fromTransforming mapping' t
  rw [transformed] at adds all
  rw [validates] at later
  rw [goesOn] at kept
  refine ⟨checked, t, added, more, begun, ?_, all rfl, fun key => ?_⟩
  · have ends : (m.run s).run = run := by rw [changed]
    rw [ends, steps, executed, ← later, adds.steps, List.append_assoc]
  · rw [held_run, executed]
    exact MigrationState.held_congr kept key

/-! ## The second run -/

theorem amounts_account (steps : List Step) :
    amounts Step.processed (steps.map Step.account) = amounts Step.processed steps :=
  List.map_map

/-- Steps that stand at the same place in two accounts count the same if the accounts agree. -/
theorem amounts_of_same_place {before before' added added' more more' : List Step}
    (first : before'.map Step.account = before.map Step.account)
    (count : added'.length = added.length)
    (both : (before' ++ (added' ++ more')).map Step.account =
      (before ++ (added ++ more)).map Step.account) :
    amounts Step.processed added' = amounts Step.processed added := by
  simp only [List.map_append, first, List.append_cancel_left_eq] at both
  have lengths : (added'.map Step.account).length = (added.map Step.account).length := by
    rw [List.length_map, List.length_map, count]
  obtain ⟨alike, _⟩ := List.append_inj both lengths
  rw [← amounts_account added', alike, amounts_account]

/-- A second run on the same target, with sources that give it the same, repeats the first one if
the sources gave no records to any entity mapping. If the first run completed, it does so only
then. -/
theorem again_repeats_iff (m : Migration σ) (mapping : Mapping) (s : MigrationState σ)
    (unasked : m.Unasked) (running : s.control.signal = .running)
    (resolved : m.resolveMapping s = .ok mapping)
    (same : m.readings mapping { m.run s with target := s.target } = m.readings mapping s) :
    ((∀ em ∈ mapping.entities, gathered (·.key == em.source.key) (m.readings mapping s) = []) →
      Repeats s (m.run s) (m.again s)) ∧
    ((m.run s).run.status = .completed → Repeats s (m.run s) (m.again s) →
      ∀ em ∈ mapping.entities, gathered (·.key == em.source.key) (m.readings mapping s) = []) := by
  let s' : MigrationState σ := { m.run s with target := s.target }
  have running' : s'.control.signal = .running :=
    (m.run_twin unasked running running rfl resolved (fun _ => resolved) rfl
      fun _ _ => rfl).running
  have resolved' : m.config.check = .ok () → m.resolveMapping s' = .ok mapping := by
    intro checked
    have left : s'.mapping = some mapping := m.resolveMapping_run resolved checked
    rw [resolveMapping, left]
  constructor
  · intro none
    refine (m.run_twin unasked running running' rfl resolved resolved' same ?_).repeats
    intro em member
    exact m.held_run_of_nil resolved (none em member)
  · intro completed repeats em member
    obtain ⟨checked, t, added, more, begun, steps, sizes, left⟩ :=
      m.completed_steps resolved completed
    obtain ⟨_, t', added', more', begun', steps', sizes', _⟩ :=
      m.completed_steps (resolved' checked) (repeats.status.trans completed)
    have begins := beginTransforming_twin unasked running running' rfl same
    rw [begun, begun'] at begins
    have before : t'.run.steps.map Step.account = t.run.steps.map Step.account :=
      congrArg Course.steps begins.results.course
    have counted : amounts Step.processed added' = amounts Step.processed added := by
      have count : added'.length = added.length := by
        have first := congrArg List.length sizes
        have second := congrArg List.length sizes'
        simp only [amounts, sourceSizes, List.length_map] at first second
        omega
      have both : (m.again s).run.steps.map Step.account = (m.run s).run.steps.map Step.account :=
        repeats.steps
      have whole : (m.again s).run.steps = t'.run.steps ++ (added' ++ more') := steps'
      rw [whole, steps] at both
      exact amounts_of_same_place before count both
    -- the second transformation begins with what the first run held and what was given again
    have held : t.held em.source.key =
        s.held em.source.key ++ gathered (·.key == em.source.key) (m.readings mapping s) :=
      m.held_beginTransforming begun em.source.key
    have held' : t'.held em.source.key =
        t.held em.source.key ++ gathered (·.key == em.source.key) (m.readings mapping s) := by
      have kept : t'.held em.source.key = s'.held em.source.key ++ _ :=
        m.held_beginTransforming begun' em.source.key
      have first : s'.held em.source.key = t.held em.source.key := left em.source.key
      rw [kept, same, first]
    have lengths : (t'.held em.source.key).length = (t.held em.source.key).length := by
      rw [sizes, sizes'] at counted
      exact congrArg Prod.snd (List.map_inj_left.1 counted em member)
    rw [held', List.length_append] at lengths
    exact List.length_eq_zero_iff.1 (by omega)

/-- The source of the branch gives the same whatever happened before. -/
theorem branchMigration_readings (mapping : Mapping) (s t : MigrationState Memory) :
    branchMigration.readings mapping s = branchMigration.readings mapping t := by
  let source := Source.ofType .manual "shop_eu" "user"
  have once (s : MigrationState Memory) : branchMigration.readings mapping s =
      [(source, (branchMigration.read (adopt mapping (branchMigration.fresh s)) source).2)] := by
    unfold readings
    change _ :: Progressed.further _ (fun _ => []) = _
    rw [Progressed.further_nil]
    rfl
  rw [once s, once t]
  rfl

/-- The customer who was added by hand is moved by both runs alike: the source gives nothing for
customers. -/
theorem branchMigration_repeats :
    let s := branchMigration.supplied [branchAddition]
      { branchMigration.initial [] with mapping := some (branchMapping "shop" "customer") }
    Repeats s (branchMigration.run s) (branchMigration.again s) ∧
      (branchMigration.run s).sent.map (fun b => b.records.length) = [1] := by
  intro s
  have resolved : branchMigration.resolveMapping s = .ok (branchMapping "shop" "customer") := rfl
  have repeats := again_repeats_iff branchMigration (branchMapping "shop" "customer") s
    (fun _ => rfl) rfl resolved (branchMigration_readings _ _ _)
  exact ⟨repeats.1 (by decide +kernel), by decide +kernel⟩

/-- The user of the branch is extracted once more by the second run and counted twice after that. -/
theorem branchMigration_counts_again :
    let s := { branchMigration.initial [] with mapping := some (branchMapping "shop_eu" "user") }
    let first := branchMigration.run s
    let second := branchMigration.again s
    branchMigration.readings (branchMapping "shop_eu" "user") { first with target := s.target } =
      branchMigration.readings (branchMapping "shop_eu" "user") s ∧
    first.run.status = .completed ∧ second.run.status = .completed ∧
    first.run.steps.map Step.processed = [1, 1, 1, 1] ∧
    second.run.steps.map Step.processed = [1, 2, 2, 2] ∧
    ¬ Repeats s first second := by
  intro s first second
  obtain ⟨completed, completed', counts, counts'⟩ :
      first.run.status = .completed ∧ second.run.status = .completed ∧
      first.run.steps.map Step.processed = [1, 1, 1, 1] ∧
      second.run.steps.map Step.processed = [1, 2, 2, 2] := by decide +kernel
  refine ⟨branchMigration_readings _ _ _, completed, completed', counts, counts', ?_⟩
  intro repeats
  have same := congrArg (List.map Step.processed) repeats.steps
  rw [List.map_map, List.map_map] at same
  have differ : second.run.steps.map Step.processed = first.run.steps.map Step.processed := same
  rw [counts, counts'] at differ
  exact absurd differ (by decide)

end Migration

end DataMigration
