import DataMigration.Proofs.Migration.Budget

/-!
# The size of batches does not matter

Two runs that cut their records into batches of different sizes, or hold back their requests
differently, tell different events and look for requests at different places. As long as the limit
on failed records is kept, they agree on everything else: work on the batches of a list comes to the
work on the list, however it is cut.
-/

namespace DataMigration

variable {σ : Type}

/-- The migration with other batches and another limit on requests. -/
def Migration.rebatched (m : Migration σ) (size : Nat) (rate : Option Binary64) : Migration σ :=
  { m with config := { m.config with batchSize := size, rateLimit := rate } }

/-- Two states in which runs go on alike. -/
structure Alike (max : Nat) (s s' : MigrationState σ) : Prop where
  bare : s'.bare = s.bare
  running : s.control.signal = .running
  running' : s'.control.signal = .running
  within : s.failures ≤ max

/-- What comes of the same work in two runs, as long as the first one keeps to the limit. -/
inductive Mirrored (max : Nat) : Progressed σ → Progressed σ → Prop
  | alike {t t' : MigrationState σ} {stop : Option (Stop MigrationError)} (same : Alike max t t') :
    Mirrored max (t, stop) (t', stop)
  | beyond {t : MigrationState σ} {stop : Stop MigrationError} {p : Progressed σ}
    (spent : max < t.failures) : Mirrored max (t, some stop) p

theorem Mirrored.andThen {max : Nat} {p p' : Progressed σ} (h : Mirrored max p p')
    {f f' : MigrationState σ → Progressed σ}
    (next : ∀ {t t'}, Alike max t t' → Mirrored max (f t) (f' t')) :
    Mirrored max (p.andThen f) (p'.andThen f') := by
  cases h with
  | @alike t t' stop same =>
    cases stop with
    | none => exact next same
    | some e => exact .alike same
  | beyond spent => exact .beyond spent

namespace Alike

variable {max : Nat} {s s' : MigrationState σ}

/-- Work that `bare` does not hide, and that charges no failure. -/
theorem map (h : Alike max s s') (f : MigrationState σ → MigrationState σ)
    (own : ∀ s, (f s).bare = (f s.bare).bare) (control : ∀ s, (f s).control = s.control)
    (failures : ∀ s, (f s).failures = s.failures) : Alike max (f s) (f s') :=
  ⟨MigrationState.bare_congr f own h.bare, control s ▸ h.running, control s' ▸ h.running',
    failures s ▸ h.within⟩

theorem failures (h : Alike max s s') : s'.failures = s.failures :=
  (congrArg MigrationState.failures h.bare :)

end Alike

/-- Work that comes to a change of the state, but for what `bare` hides, or to too many failures. -/
def Whole (m : Migration σ) (work : MigrationState σ → Progressed σ)
    (change : MigrationState σ → MigrationState σ) : Prop :=
  ∀ s, s.control.signal = .running → s.failures ≤ m.config.maxErrors →
    ((change s).failures ≤ m.config.maxErrors ∧
      ∃ t, work s = (t, none) ∧ t.control.signal = .running ∧ t.bare = (change s).bare) ∨
    (m.config.maxErrors < (change s).failures ∧
      ∃ t stop, work s = (t, some stop) ∧ m.config.maxErrors < t.failures)

/-- Work of two runs that comes to the same change. -/
theorem Whole.mirrored {m m' : Migration σ} {work work' : MigrationState σ → Progressed σ}
    {change : MigrationState σ → MigrationState σ} (h : Whole m work change)
    (h' : Whole m' work' change) (limit : m'.config.maxErrors = m.config.maxErrors)
    (own : ∀ s, (change s).bare = (change s.bare).bare) {s s' : MigrationState σ}
    (alike : Alike m.config.maxErrors s s') :
    Mirrored m.config.maxErrors (work s) (work' s') := by
  have bare := MigrationState.bare_congr change own alike.bare
  have failures : (change s').failures = (change s).failures :=
    (congrArg MigrationState.failures bare :)
  obtain ⟨kept, t, works, running, ends⟩ | ⟨_, t, stop, works, spent⟩ :=
    h s alike.running alike.within
  · rw [works]
    obtain ⟨_, t', works', running', ends'⟩ | ⟨spent, _⟩ :=
      h' s' alike.running' (by rw [limit, alike.failures]; exact alike.within)
    · rw [works']
      have same : t.failures = (change s).failures := (congrArg MigrationState.failures ends :)
      exact .alike ⟨by rw [ends, ends', bare], running, running', same ▸ kept⟩
    · rw [limit, failures] at spent
      exact absurd (spent.trans_le kept) (Nat.lt_irrefl _)
  · rw [works]
    exact .beyond spent

namespace Migration

variable {m : Migration σ} {s s' : MigrationState σ}

/-! ## Loops as a whole -/

section

variable (unasked : m.Unasked)
include unasked

/-- The records of a step are all transformed, or too many failed. -/
theorem transformRecords_whole (em : EntityMapping) (tools : Toolbox) (sources : List SourceRecord)
    (step : Step) (running : s.control.signal = .running)
    (within : s.failures ≤ m.config.maxErrors) :
    let p := m.transformRecords em tools sources s step
    let failures := m.transformFailures em tools sources
    (s.failures + failures ≤ m.config.maxErrors ∧ p.2 = none ∧
      Work.Handles (m.transformProblem? em tools) (m.transformed em tools) sources
        { state := s, step } p.1 ∧
      Charged failures s p.1.state) ∨
    (m.config.maxErrors < s.failures + failures ∧ p.2 ≠ none ∧
      m.config.maxErrors < p.1.state.failures) := by
  obtain ⟨done, handled, charged, metered⟩ :=
    transformRecords_metered unasked em tools sources step running within
  obtain ⟨all, through, kept⟩ | ⟨stopped, spent, rest, all⟩ := metered.all_or_over_batches
  · rw [all] at handled charged kept
    exact .inl ⟨kept, through, handled, charged⟩
  · have most : m.transformFailures em tools done.flatten ≤
        m.transformFailures em tools sources := by
      rw [← all, m.transformFailures_append]
      exact Nat.le_add_right _ _
    refine .inr ⟨?_, stopped, charged.failures ▸ spent⟩
    exact spent.trans_le (Nat.add_le_add_left most _)

omit unasked in
/-- The batches of a list deliver what the list does, if there is anything. -/
theorem foldl_deliver {loader : Loader (Target σ)} (sequential : loader.Sequential)
    (entity : String) (upsert : Bool) {parts : List (List TargetRecord)} (some : parts ≠ [])
    (acc : Target σ × Dict (List String)) :
    (parts.map fun part => Batch.mk entity part upsert).foldl loader.deliver acc =
      loader.deliver acc ⟨entity, parts.flatten, upsert⟩ := by
  have each (rs : List TargetRecord) (target : Target σ) := sequential rs entity upsert target
  induction parts generalizing acc with
  | nil => exact absurd rfl some
  | cons part parts ih =>
    cases parts with
    | nil => simp
    | cons next parts =>
      have whole : (part :: next :: parts).flatten = part ++ (next :: parts).flatten :=
        List.flatten_cons
      rw [List.map_cons, List.foldl_cons, ih (List.cons_ne_nil _ _), whole]
      simp only [Loader.deliver, each, loader.loadEach_append, Dict.upsert_upsert, LoadResult.merge,
        List.append_assoc]

omit unasked in
/-- The state after records of an entity were loaded one by one. -/
def delivered (loader : Loader (Target σ)) (entity : String) (upsert : Bool)
    (records : List TargetRecord) (s : MigrationState σ) : MigrationState σ :=
  let p := loader.loadEach records entity upsert s.target
  { s with
      target := p.2
      failures := s.failures + p.1.failed
      run := if records = [] then s.run else s.run.noteCreated entity p.1.created }

/-- The records of an entity are all loaded, or too many failed. -/
theorem loadRecords_whole {loader : Loader (Target σ)} (sequential : loader.Sequential)
    (entity : String) (records : List TargetRecord) (step : Step)
    (running : s.control.signal = .running) (within : s.failures ≤ m.config.maxErrors) :
    let p := m.loadRecords loader entity records s step
    let q := loader.loadEach records entity m.config.upsert s.target
    (s.failures + q.1.failed ≤ m.config.maxErrors ∧ p.2 = none ∧ p.1.step = countLoad q.1 step ∧
      p.1.state.control.signal = .running ∧
      p.1.state.bare = (delivered loader entity m.config.upsert records s).bare) ∨
    (m.config.maxErrors < s.failures + q.1.failed ∧ p.2 ≠ none ∧
      m.config.maxErrors < p.1.state.failures) := by
  obtain rfl | some := eq_or_ne records []
  · exact .inl ⟨within, rfl, (countLoad_new entity step).symm, running, rfl⟩
  obtain ⟨done, loads, sends, changed, metered⟩ :=
    loadRecords_metered unasked entity sequential records step running within
  have done_ne : done ≠ [] := metered.ne_nil (batches_ne_nil _ some)
  obtain ⟨all, through, kept⟩ | ⟨stopped, spent, rest, all⟩ := metered.all_or_over_batches
  · have created := congrArg Prod.snd sends.delivered
    have each := sequential records entity m.config.upsert s.target
    rw [foldl_deliver sequential entity m.config.upsert done_ne, all] at created
    simp only [Loader.deliver, each] at created
    rw [all] at loads kept
    refine .inl ⟨kept, through, loads.step, changed.running, ?_⟩
    rw [changed.bare, loads.target, loads.failures, created, delivered, if_neg some]
    rfl
  · refine .inr ⟨?_, stopped, loads.failures ▸ spent⟩
    rw [← all, loader.loadEach_append]
    exact spent.trans_le (Nat.add_le_add_left (Nat.le_add_right _ _) _)

end

/-! ## Step by step -/

/-- The change that the step of an entity mapping comes to. -/
def transformChange (m : Migration σ) (tools : Toolbox) (em : EntityMapping)
    (s : MigrationState σ) : MigrationState σ :=
  let p := s.newStep m
    ("Transform " ++ em.source.entity ++ " to " ++ em.target.entity) em.target.entity .transforming
  match s.extractedRecords em.source.service em.source.entity with
  | [] => p.1.finishStep m { p.2 with warnings := p.2.warnings ++
      ["No source data found for " ++ recordKey em.source.service em.source.entity] } none
  | sources =>
    MigrationState.finishStep m
      { p.1 with
        failures := s.failures + m.transformFailures em tools sources
        working := addRecords em.target (sources.flatMap (m.transformed em tools)) s.working }
      (p.2.countAll (sources.map (m.transformProblem? em tools))) none

theorem transformStep_whole (unasked : m.Unasked) (tools : Toolbox) (em : EntityMapping) :
    Whole m (m.transformStep tools em) (m.transformChange tools em) := by
  intro s running within
  let sources := s.extractedRecords em.source.service em.source.entity
  by_cases empty : sources = []
  · have changes : m.transformChange tools em s = (m.transformStep tools em s).1 := by
      rw [m.transformStep_of_nil tools empty, transformChange,
        show s.extractedRecords _ _ = [] from empty]
    rw [changes, m.transformStep_of_nil tools empty]
    exact .inl ⟨within, _, rfl, running, rfl⟩
  · let opened := s.newStep m ("Transform " ++ em.source.entity ++ " to " ++ em.target.entity)
      em.target.entity .transforming
    have changes : m.transformChange tools em s = MigrationState.finishStep m
        { opened.1 with
          failures := s.failures + m.transformFailures em tools sources
          working := addRecords em.target (sources.flatMap (m.transformed em tools)) s.working }
        (opened.2.countAll (sources.map (m.transformProblem? em tools))) none := by
      simp only [transformChange]
      split
      · rename_i found
        exact absurd found empty
      · rfl
    have whole := transformRecords_whole unasked em tools sources opened.2
      (show opened.1.control.signal = .running from running) within
    rw [changes, m.transformStep_of_ne_nil tools empty]
    simp only
    revert whole
    generalize m.transformRecords em tools sources opened.1 opened.2 = q
    obtain ⟨w, stop⟩ := q
    rintro (⟨kept, rfl, handled, charged⟩ | ⟨spent, stopped, beyond⟩)
    · have records : w.records = sources.flatMap (m.transformed em tools) := handled.records
      refine .inl ⟨kept, _, rfl, charged.running, ?_⟩
      rw [← handled.step, ← records]
      exact MigrationState.bare_congr
        (t := { opened.1 with failures := s.failures + m.transformFailures em tools sources })
        (fun s => MigrationState.finishStep m
          { s with working := addRecords em.target w.records s.working } w.step none)
        (fun _ => rfl) charged.bare
    · obtain ⟨stop, rfl⟩ := Option.ne_none_iff_exists'.1 stopped
      refine .inr ⟨spent, _, stop, rfl, ?_⟩
      rw [MigrationState.endStep_failures]
      exact beyond

theorem transformChange_bare (tools : Toolbox) (em : EntityMapping) (s : MigrationState σ) :
    (m.transformChange tools em s).bare = (m.transformChange tools em s.bare).bare := by
  have same : s.bare.extractedRecords = s.extractedRecords := rfl
  simp only [transformChange, same]
  cases s.extractedRecords em.source.service em.source.entity <;> rfl

theorem writeArtifact_bare (s : MigrationState σ) (directory name : String) (v : Value) :
    s.bare.writeArtifact m directory name v =
      let p := s.writeArtifact m directory name v
      (p.1.bare, p.2) := by
  simp only [MigrationState.writeArtifact, show s.bare.files = s.files from rfl]
  split
  · rfl
  · split <;> rfl

theorem saveTransformed_bare (s : MigrationState σ) :
    m.saveTransformed s.bare = (m.saveTransformed s).bare := by
  simp only [saveTransformed]
  split
  · exact List.foldl_hom MigrationState.bare fun s w =>
      congrArg Prod.fst (writeArtifact_bare s _ _ _)
  · rfl

/-- The change that the step of an entity comes to. -/
def loadChange (m : Migration σ) (loader : Loader (Target σ)) (entity : String)
    (s : MigrationState σ) : MigrationState σ :=
  let (opened, step) := m.beginLoad entity s
  let records := m.recordsToLoad s.working entity
  (delivered loader entity m.config.upsert records opened).finishStep m
    (countLoad (loader.loadEach records entity m.config.upsert s.target).1 step) none

theorem loadStep_whole (unasked : m.Unasked) {loader : Loader (Target σ)}
    (sequential : loader.Sequential) (entity : String) :
    Whole m (m.loadStep loader entity) (m.loadChange loader entity) := by
  intro s running within
  let records := m.recordsToLoad s.working entity
  let begun := m.beginLoad entity s
  have changes : m.loadChange loader entity s =
      (delivered loader entity m.config.upsert records begun.1).finishStep m
        (countLoad (loader.loadEach records entity m.config.upsert s.target).1 begun.2) none := rfl
  have whole := loadRecords_whole unasked sequential entity records begun.2
    (show begun.1.control.signal = .running from running) within
  rw [loadStep_eq, changes]
  simp only
  revert whole
  generalize m.loadRecords loader entity records begun.1 begun.2 = q
  obtain ⟨w, stop⟩ := q
  rintro (⟨kept, rfl, counted, goes, ends⟩ | ⟨spent, stopped, beyond⟩)
  · refine .inl ⟨kept, _, rfl, goes, ?_⟩
    have same : w.step =
        countLoad (loader.loadEach records entity m.config.upsert s.target).1 begun.2 := counted
    rw [← same]
    exact MigrationState.bare_congr (fun s => s.finishStep m w.step none) (fun _ => rfl) ends
  · obtain ⟨stop, rfl⟩ := Option.ne_none_iff_exists'.1 stopped
    refine .inr ⟨spent, _, stop, rfl, ?_⟩
    rw [MigrationState.endStep_failures]
    exact beyond

theorem loadChange_rebatched (size : Nat) (rate : Option Binary64) {l l' : Loader (Target σ)}
    (same : l'.load = l.load) (entity : String) :
    (m.rebatched size rate).loadChange l' entity = m.loadChange l entity := by
  funext s
  simp only [loadChange, delivered, Loader.loadEach_congr same]
  rfl

/-! ## Phase by phase -/

section

variable (unasked : m.Unasked) (size : Nat) (rate : Option Binary64)
include unasked

theorem transformAll_mirrored (tools : Toolbox) (ems : List EntityMapping)
    (alike : Alike m.config.maxErrors s s') :
    Mirrored m.config.maxErrors (m.transformAll tools ems s)
      ((m.rebatched size rate).transformAll tools ems s') := by
  induction ems generalizing s s' with
  | nil => exact .alike alike
  | cons em ems ih =>
    have whole := transformStep_whole unasked tools em
    have whole' := transformStep_whole (m := m.rebatched size rate) unasked tools em
    exact (whole.mirrored whole' rfl (transformChange_bare tools em) alike).andThen ih

theorem runTransformation_mirrored (mapping : Mapping) (alike : Alike m.config.maxErrors s s') :
    Mirrored m.config.maxErrors (m.runTransformation mapping s)
      ((m.rebatched size rate).runTransformation mapping s') := by
  refine (transformAll_mirrored unasked size rate _ _ alike).andThen fun {t t'} alike => ?_
  refine .alike (alike.map m.saveTransformed (fun s => ?_) (fun s => ?_) (fun s => ?_))
  · rw [saveTransformed_bare]
    rfl
  · obtain ⟨files, saved⟩ := m.saveTransformed_frame s
    rw [saved]
  · obtain ⟨files, saved⟩ := m.saveTransformed_frame s
    rw [saved]

theorem validateStep_alike (set : WorkingSet) (alike : Alike m.config.maxErrors s s') :
    ∃ t t', m.validateStep set s = (m.thinned set, t, none) ∧
      (m.rebatched size rate).validateStep set s' = (m.thinned set, t', none) ∧
      Alike m.config.maxErrors t t' := by
  let change (s : MigrationState σ) : MigrationState σ :=
    (s.newStep m ("Validate " ++ set.target.entity) set.target.entity .validating).1.finishStep m
      ((m.validationStep set s).countAll
        (set.records.map (m.validationProblem? (m.registry.entitySchema? set.target)))) none
  have bare : (change s').bare = (change s).bare :=
    MigrationState.bare_congr change (fun _ => rfl) alike.bare
  obtain ⟨thinned, through, running, ends⟩ := validateStep_unasked unasked set alike.running
  obtain ⟨thinned', through', running', ends'⟩ :=
    validateStep_unasked (m := m.rebatched size rate) unasked set alike.running'
  have failures : (m.validateStep set s).2.1.failures = s.failures :=
    (congrArg MigrationState.failures ends :)
  refine ⟨_, _, Prod.ext thinned (Prod.ext rfl through), Prod.ext thinned' (Prod.ext rfl through'),
    ?_, running, running', failures.trans_le alike.within⟩
  exact ends'.trans (bare.trans ends.symm)

/-- Working sets are validated alike, whatever the batches. -/
theorem validateAll_alike (sets : List WorkingSet) (alike : Alike m.config.maxErrors s s') :
    ∃ t t', m.validateAll sets s = (sets.map m.thinned, t, none) ∧
      (m.rebatched size rate).validateAll sets s' = (sets.map m.thinned, t', none) ∧
      Alike m.config.maxErrors t t' := by
  induction sets generalizing s s' with
  | nil => exact ⟨s, s', rfl, rfl, alike⟩
  | cons set sets ih =>
    obtain ⟨t, t', validates, validates', same⟩ := validateStep_alike unasked size rate set alike
    obtain ⟨u, u', further, further', ends⟩ := ih same
    refine ⟨u, u', ?_, ?_, ends⟩
    · simp only [validateAll, validates, further, List.map_cons]
    · simp only [validateAll, validates', further', List.map_cons]

theorem runValidation_mirrored (alike : Alike m.config.maxErrors s s') :
    Mirrored m.config.maxErrors (m.runValidation s) ((m.rebatched size rate).runValidation s') := by
  have working : s'.working = s.working := (congrArg MigrationState.working alike.bare :)
  obtain ⟨t, t', validates, validates', same⟩ :=
    validateAll_alike unasked size rate s.working alike
  simp only [runValidation, working, validates, validates']
  exact .alike (same.map (fun s => { s with working := _ }) (fun _ => rfl) (fun _ => rfl)
    (fun _ => rfl))

omit unasked in
/-- A limit that can be kept to changes how a loader takes batches only. -/
theorem limited_of_isPace {τ : Type} (l : Loader τ) {rate : Option Binary64}
    (pace : rate.all Binary64.isPace) :
    ∃ l', l.limited rate = .ok l' ∧ l'.load = l.load ∧ l'.connected = l.connected := by
  cases limited : l.limited rate with
  | ok l' =>
    refine ⟨l', rfl, ?_⟩
    obtain rfl | rfl := Loader.limited_eq_ok limited <;> exact ⟨rfl, rfl⟩
  | error stop =>
    obtain ⟨_, endless⟩ := Loader.limited_standstill limited
    cases rate with
    | none => cases endless
    | some rate =>
      rw [Option.all_some, requestInterval?_isSome_iff.2 (.inr pace)] at endless
      cases endless

variable (pace : m.config.rateLimit.all Binary64.isPace) (pace' : rate.all Binary64.isPace)

omit unasked in
include pace pace' in
/-- The loaders of two runs with one target differ in how they take batches only. -/
theorem loader_rebatched
    (target : m.connectors.targetLoader (m.rebatched size rate).config =
      m.connectors.targetLoader m.config) :
    (∃ stop, m.connectors.loader m.config = .error stop ∧
      m.connectors.loader (m.rebatched size rate).config = .error stop) ∨
    ∃ l l', m.connectors.loader m.config = .ok l ∧
      m.connectors.loader (m.rebatched size rate).config = .ok l' ∧
      l'.load = l.load ∧ l'.connected = l.connected := by
  have built : m.connectors.unlimited (m.rebatched size rate).config =
      m.connectors.unlimited m.config := by
    simp only [Connectors.unlimited, target]
    rfl
  have limit : (m.rebatched size rate).config.rateLimit = rate := rfl
  simp only [Connectors.loader, built, limit]
  cases m.connectors.unlimited m.config with
  | error e => exact .inl ⟨_, rfl, rfl⟩
  | ok l =>
    obtain ⟨limited, found, load, connected⟩ := limited_of_isPace l pace
    obtain ⟨limited', found', load', connected'⟩ := limited_of_isPace l pace'
    exact .inr ⟨limited, limited', found, found', load'.trans load.symm,
      connected'.trans connected.symm⟩

theorem loadAll_mirrored {l l' : Loader (Target σ)} (sequential : l.Sequential)
    (sequential' : l'.Sequential) (same : l'.load = l.load) (entities : List String)
    (alike : Alike m.config.maxErrors s s') :
    Mirrored m.config.maxErrors (m.loadAll l entities s)
      ((m.rebatched size rate).loadAll l' entities s') := by
  induction entities generalizing s s' with
  | nil => exact .alike alike
  | cons entity entities ih =>
    have whole := loadStep_whole unasked sequential entity
    have whole' := loadStep_whole (m := m.rebatched size rate) unasked sequential' entity
    rw [loadChange_rebatched size rate same] at whole'
    exact (whole.mirrored whole' rfl (fun _ => rfl) alike).andThen ih

include pace pace' in
theorem runLoading_mirrored (mapping : Mapping)
    (sequential : ∀ l, m.connectors.targetLoader m.config = .ok l → l.Sequential)
    (target : m.connectors.targetLoader (m.rebatched size rate).config =
      m.connectors.targetLoader m.config)
    (alike : Alike m.config.maxErrors s s') :
    Mirrored m.config.maxErrors (m.runLoading mapping s)
      ((m.rebatched size rate).runLoading mapping s') := by
  have connectors : (m.rebatched size rate).connectors = m.connectors := rfl
  have service : (m.rebatched size rate).config.targetService = m.config.targetService := rfl
  have working : s'.working = s.working := (congrArg MigrationState.working alike.bare :)
  have entities : loadEntities mapping s'.working = loadEntities mapping s.working := by
    rw [working]
  simp only [runLoading, connectors, service, entities]
  obtain ⟨stop, fails, fails'⟩ | ⟨l, l', found, found', same, connected⟩ :=
    loader_rebatched (m := m) size rate pace pace' target
  · rw [fails, fails']
    exact .alike alike
  · rw [found, found']
    simp only [connected]
    split
    · refine loadAll_mirrored unasked size rate (Connectors.loader_sequential sequential found)
        (Connectors.loader_sequential (target ▸ sequential) found') same _
        ⟨?_, alike.running, alike.running', alike.within⟩
      exact (congrArg (fun t : MigrationState σ =>
        { t with target := { t.target with memory := [] } }) alike.bare :)
    · exact .alike alike

end

section

variable (m) (size : Nat) (rate : Option Binary64)

theorem readAll_rebatched (sources : List Source) (s : MigrationState σ) :
    (m.rebatched size rate).readAll sources s = m.readAll sources s := by
  induction sources generalizing s with
  | nil => rfl
  | cons source rest ih =>
    have read : (m.rebatched size rate).read s source = m.read s source := rfl
    simp only [readAll, read, ih]

theorem extractAll_rebatched (sources : List Source) (ahead : List Extracted)
    (s : MigrationState σ) :
    (m.rebatched size rate).extractAll sources ahead s = m.extractAll sources ahead s := by
  have step (source : Source) (x : Extracted) (s : MigrationState σ) :
      (m.rebatched size rate).extractStep source x s = m.extractStep source x s := rfl
  have readAhead (source : Source) (rest : List Source) (s : MigrationState σ) :
      (m.rebatched size rate).readAhead s source rest = m.readAhead s source rest := by
    have read : (m.rebatched size rate).read s source = m.read s source := rfl
    have waits : (m.rebatched size rate).waits s source = m.waits s source := rfl
    have workers : (m.rebatched size rate).config.workers = m.config.workers := rfl
    simp only [Migration.readAhead, read, waits, workers, readAll_rebatched]
  induction sources generalizing ahead s with
  | nil => rfl
  | cons source rest ih =>
    have others (ahead : List Extracted) :
        (m.rebatched size rate).extractAll rest ahead = m.extractAll rest ahead :=
      funext (ih ahead)
    cases ahead with
    | nil => simp only [extractAll, readAhead, step, others]
    | cons x ahead => simp only [extractAll, step, others]

end

/-! ## A whole run -/

section

variable (unasked : m.Unasked) (size : Nat) (rate : Option Binary64)
include unasked

omit unasked in
theorem goTo_mirrored (next : RunStatus) (alike : Alike m.config.maxErrors s s') :
    Mirrored m.config.maxErrors (s.goTo m next) (s'.goTo (m.rebatched size rate) next) := by
  have run : s'.run = s.run := (congrArg MigrationState.run alike.bare :)
  have now : (m.rebatched size rate).now = m.now := rfl
  simp only [MigrationState.goTo, run, now]
  split
  · rename_i run _
    exact .alike (alike.map (fun s => { s with run }) (fun _ => rfl) (fun _ => rfl) (fun _ => rfl))
  · exact .alike alike

omit unasked in
theorem phase_mirrored (status : RunStatus) {work work' : MigrationState σ → Progressed σ}
    (works : ∀ {t t'}, Alike m.config.maxErrors t t' →
      Mirrored m.config.maxErrors (work t) (work' t'))
    (alike : Alike m.config.maxErrors s s') :
    Mirrored m.config.maxErrors (m.phase status work s)
      ((m.rebatched size rate).phase status work' s') :=
  (goTo_mirrored size rate status alike).andThen works

/-- Both runs extract the same. -/
theorem extracting_mirrored (running : s.control.signal = .running)
    (within : s.failures ≤ m.config.maxErrors) :
    Mirrored m.config.maxErrors (m.phase .extracting m.runExtraction s)
      ((m.rebatched size rate).phase .extracting (m.rebatched size rate).runExtraction s) := by
  have extraction : (m.rebatched size rate).runExtraction = m.runExtraction :=
    funext fun s => extractAll_rebatched m size rate m.config.sources [] s
  have same : (m.rebatched size rate).phase .extracting m.runExtraction s =
      m.phase .extracting m.runExtraction s := rfl
  rw [extraction, same, phase]
  obtain ⟨run, changed, _⟩ := s.goTo_frame m .extracting
  revert changed
  generalize s.goTo m .extracting = q
  obtain ⟨t, _ | e⟩ := q
  · rintro rfl
    have steady := runExtraction_steady unasked (s := { s with run }) running
    have failures := (Kept.failures m).runExtraction (fun _ _ => rfl) { s with run }
    exact .alike ⟨rfl, steady.signal, steady.signal, failures.trans_le within⟩
  · rintro rfl
    exact .alike ⟨rfl, running, running, within⟩

variable (sequential : ∀ l, m.connectors.targetLoader m.config = .ok l → l.Sequential)
  (target : m.connectors.targetLoader (m.rebatched size rate).config =
    m.connectors.targetLoader m.config)
  (pace : m.config.rateLimit.all Binary64.isPace) (pace' : rate.all Binary64.isPace)
include sequential target pace pace'

theorem phases_mirrored (mapping : Mapping) (running : s.control.signal = .running)
    (within : s.failures ≤ m.config.maxErrors) :
    Mirrored m.config.maxErrors (m.phases mapping s)
      ((m.rebatched size rate).phases mapping s) := by
  have extracting := extracting_mirrored unasked size rate running within
  have transforming := extracting.andThen
    (phase_mirrored size rate .transforming (runTransformation_mirrored unasked size rate mapping))
  have validating := transforming.andThen
    (phase_mirrored size rate .validating (runValidation_mirrored unasked size rate))
  have loading := validating.andThen (phase_mirrored size rate .loading
    (runLoading_mirrored unasked size rate pace pace' mapping sequential target))
  exact loading.andThen (goTo_mirrored size rate .completed)

theorem execute_mirrored
    (checks : (m.rebatched size rate).config.check = m.config.check)
    (running : s.control.signal = .running) (within : s.failures ≤ m.config.maxErrors) :
    Mirrored m.config.maxErrors (m.execute s) ((m.rebatched size rate).execute s) := by
  have alike : Alike m.config.maxErrors s s := ⟨rfl, running, running, within⟩
  have resolves : (m.rebatched size rate).resolveMapping s = m.resolveMapping s := rfl
  have problems : (m.rebatched size rate).preflightProblem? = m.preflightProblem? := rfl
  simp only [execute, checks, resolves]
  cases m.config.check with
  | error e => exact .alike alike
  | ok _ =>
    cases m.resolveMapping s with
    | error e => exact .alike alike
    | ok mapping =>
      simp only [preflight, problems]
      cases mapping.entities.filterMap m.preflightProblem? with
      | nil =>
        exact phases_mirrored unasked size rate sequential target pace pace' mapping running within
      | cons _ _ =>
        exact .alike (alike.map (adopt mapping) (fun _ => rfl) (fun _ => rfl) (fun _ => rfl))

end

theorem goTo_bare (s : MigrationState σ) (next : RunStatus) :
    (s.goTo m next).1.bare = (s.bare.goTo m next).1.bare := by
  simp only [MigrationState.goTo, show s.bare.run = s.run from rfl]
  split <;> rfl

theorem stop_bare (s : MigrationState σ) (e : MigrationError) :
    (m.stop s e).bare = (m.stop s.bare e).bare := by
  simp only [stop]
  split
  · exact goTo_bare s .cancelled
  · let noted (s : MigrationState σ) : MigrationState σ :=
      ({ s with run := s.run.noteError (currentPhase s.run) e.message m.now } :
        MigrationState σ).emit (.error (currentPhase s.run) e.message)
    exact (goTo_bare (noted s) .failed).trans (goTo_bare (noted s.bare) .failed).symm

theorem saveReport_bare (s : MigrationState σ) :
    (m.saveReport s).bare = (m.saveReport s.bare).bare := by
  simp only [saveReport, writeArtifact_bare, show s.bare.run = s.run from rfl]
  generalize s.writeArtifact m _ _ _ = p
  obtain ⟨t, path, _ | e⟩ := p <;> rfl

theorem conclude_bare (s : MigrationState σ) : (m.conclude s).bare = (m.conclude s.bare).bare :=
  saveReport_bare { s with run := s.run.withTotals }

theorem settle_bare (s : MigrationState σ) (stopped : Option (Stop MigrationError)) :
    (m.settle (s, stopped)).bare = (m.settle (s.bare, stopped)).bare := by
  obtain _ | ⟨e⟩ | ⟨why⟩ := stopped
  · exact conclude_bare s
  · exact MigrationState.bare_congr m.conclude conclude_bare (stop_bare s e)
  · rfl

theorem check_rebatched (size : Nat) (rate : Option Binary64)
    (positive : 0 < m.config.batchSize) (positive' : 0 < size)
    (pace : m.config.rateLimit.all Binary64.isPace) (pace' : rate.all Binary64.isPace) :
    (m.rebatched size rate).config.check = m.config.check := by
  have passes (rate : Option Binary64) (pace : rate.all Binary64.isPace) :
      (rate.any fun x => !x.isPositive) = false := by
    cases rate with
    | none => rfl
    | some x =>
      simp only [Option.all_some, Binary64.isPace, Bool.and_eq_true] at pace
      simp only [Option.any_some, pace.1, Bool.not_true]
  simp only [Config.check, rebatched, passes rate pace', passes _ pace, positive.ne',
    positive'.ne', if_false]

/-- Runs that work alike end alike. -/
theorem run_bare_of_mirrored {m' : Migration σ}
    (mirrored : Mirrored m.config.maxErrors (m.execute (m.fresh s)) (m'.execute (m'.fresh s)))
    (settles : m'.settle = m.settle)
    (within : (m.run s).failures ≤ m.config.maxErrors) : (m'.run s).bare = (m.run s).bare := by
  obtain ⟨run, events, files, path, ran, _⟩ := m.run_frame s
  have kept : (m.execute (m.fresh s)).1.failures ≤ m.config.maxErrors :=
    (congrArg MigrationState.failures ran :).ge.trans within
  simp only [Migration.run, settles]
  revert mirrored kept
  generalize m.execute (m.fresh s) = p, m'.execute (m'.fresh s) = p'
  intro mirrored kept
  cases mirrored with
  | @alike t t' stop same =>
    exact MigrationState.bare_congr (fun s => m.settle (s, stop)) (settle_bare · stop) same.bare
  | beyond spent => exact absurd (spent.trans_le kept) (Nat.lt_irrefl _)

/-- A run of which nothing is asked and that keeps to its limit on failed records comes to the same
whatever the size of its batches and its limit on requests are: its account, the target and the
working sets, however they are cut. -/
theorem run_rebatched (m : Migration σ) (size : Nat) (rate : Option Binary64)
    (s : MigrationState σ) (unasked : m.Unasked) (running : s.control.signal = .running)
    (sequential : ∀ l, m.connectors.targetLoader m.config = .ok l → l.Sequential)
    (target : m.connectors.targetLoader (m.rebatched size rate).config =
      m.connectors.targetLoader m.config)
    (positive : 0 < m.config.batchSize) (positive' : 0 < size)
    (pace : m.config.rateLimit.all Binary64.isPace) (pace' : rate.all Binary64.isPace)
    (within : (m.run s).failures ≤ m.config.maxErrors) :
    ((m.rebatched size rate).run s).run = (m.run s).run ∧
    ((m.rebatched size rate).run s).target = (m.run s).target ∧
    ((m.rebatched size rate).run s).working = (m.run s).working := by
  have mirrored := execute_mirrored unasked size rate sequential target pace pace'
    (check_rebatched size rate positive positive' pace pace') (s := m.fresh s) running (Nat.zero_le _)
  have bare : ((m.rebatched size rate).run s).bare = (m.run s).bare :=
    run_bare_of_mirrored mirrored rfl within
  exact ⟨(congrArg MigrationState.run bare :), (congrArg MigrationState.target bare :),
    (congrArg MigrationState.working bare :)⟩

/-- Two contacts arrive alike in two batches of one and in a single batch at five requests in a
second. -/
theorem carefulMigration_rebatched :
    (carefulMigration.run contactState).sent.length = 2 ∧
    ((carefulMigration.rebatched 2 (some ⟨0x4014000000000000⟩)).run contactState).sent.length = 1 ∧
    (carefulMigration.run contactState).failures ≤ carefulMigration.config.maxErrors ∧
    ((carefulMigration.rebatched 2 (some ⟨0x4014000000000000⟩)).run contactState).run =
      (carefulMigration.run contactState).run ∧
    ((carefulMigration.rebatched 2 (some ⟨0x4014000000000000⟩)).run contactState).target =
      (carefulMigration.run contactState).target ∧
    ((carefulMigration.rebatched 2 (some ⟨0x4014000000000000⟩)).run contactState).working =
      (carefulMigration.run contactState).working := by
  have sequential : ∀ l,
      carefulMigration.connectors.targetLoader carefulMigration.config = .ok l → l.Sequential := by
    rintro l ⟨⟩ rs entity upsert target
    rfl
  have within : (carefulMigration.run contactState).failures ≤
      carefulMigration.config.maxErrors := by decide +kernel
  exact ⟨by decide +kernel, by decide +kernel, within,
    run_rebatched carefulMigration 2 (some ⟨0x4014000000000000⟩) contactState (fun _ => rfl) rfl
      sequential rfl (by decide) (by decide) rfl (by decide) within⟩

/-- A limit of zero requests in a second is refused, so the same run fails. -/
theorem contactMigration_refuses_zero_rate :
    contactMigration.Unasked ∧ contactState.control.signal = .running ∧
    (∀ l, contactMigration.connectors.targetLoader contactMigration.config = .ok l →
      l.Sequential) ∧
    (contactMigration.run contactState).failures ≤ contactMigration.config.maxErrors ∧
    (contactMigration.run contactState).run.status = .completed ∧
    ((contactMigration.rebatched contactMigration.config.batchSize (some ⟨0⟩)).run
      contactState).run.status = .failed := by
  refine ⟨fun _ => rfl, rfl, ?_, by decide +kernel, by decide +kernel, by decide +kernel⟩
  rintro l ⟨⟩ rs entity upsert target
  rfl

end Migration

end DataMigration
