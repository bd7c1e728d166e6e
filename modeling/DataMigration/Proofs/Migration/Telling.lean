import DataMigration.Proofs.Migration.Ending
import DataMigration.Proofs.Migration.Records
import Mathlib.Data.List.Forall2

/-!
# What a run tells of itself

A run is told step by step: first how far the step has come, batch by batch, and then how it ended.
What is told of a step agrees with the step that is added to the run; so the events of a run are
its steps, its error if it has one, and its end. A run that comes to a standstill tells no end, and
perhaps has told of a step that it has not ended.
-/

namespace DataMigration

/-! ## Reports -/

/-- The counters of a step that are told. -/
structure Counters where
  processed : Nat
  succeeded : Nat
  failed : Nat

/-- The counters of a step. -/
def Step.counters (s : Step) : Counters := ⟨s.processed, s.succeeded, s.failed⟩

/-- None of the counters is greater. -/
structure Counters.Le (c d : Counters) : Prop where
  processed : c.processed ≤ d.processed
  succeeded : c.succeeded ≤ d.succeeded
  failed : c.failed ≤ d.failed

namespace Counters

theorem Le.trans {c d e : Counters} (h : c.Le d) (h' : d.Le e) : c.Le e :=
  ⟨h.processed.trans h'.processed, h.succeeded.trans h'.succeeded, h.failed.trans h'.failed⟩

end Counters

/-- How far a step has come. -/
structure Standing where
  counters : Counters
  total : Nat
  message : String

/-- The event that reports on a step of an entity in a phase. -/
def Standing.event (phase : RunStatus) (entity : String) (r : Standing) : ProgressEvent :=
  .progress phase entity r.counters.processed r.counters.succeeded r.counters.failed r.total
    r.message

/-- The events of one step: reports on its entity in one phase, with counters that never go down and
are those of the step at last, and then the end of the step. -/
def Recounts (step : Step) (told : List ProgressEvent) : Prop :=
  ∃ (phase : RunStatus) (reports : List Standing),
    told = reports.map (Standing.event phase step.entity) ++ [.ofStep step] ∧
    reports.Pairwise (fun r r' => r.counters.Le r'.counters) ∧
    ∀ last ∈ reports.getLast?, last.counters = step.counters

/-- Reports that lead up from counters to counters: each one says where the step is, and after the
last one nothing is counted. -/
inductive Rising : Counters → List Standing → Counters → Prop
  | nil (c : Counters) : Rising c [] c
  | cons {c d : Counters} {r : Standing} {reports : List Standing} (more : c.Le r.counters)
      (others : Rising r.counters reports d) : Rising c (r :: reports) d

namespace Rising

variable {c d e : Counters} {reports reports' : List Standing}

theorem trans (h : Rising c reports d) (h' : Rising d reports' e) :
    Rising c (reports ++ reports') e := by
  induction h with
  | nil _ => exact h'
  | cons more _ ih => exact .cons more (ih h')

theorem le_of_mem (h : Rising c reports d) : ∀ r ∈ reports, c.Le r.counters := by
  induction h with
  | nil _ => exact fun _ none => nomatch none
  | cons more _ ih => exact List.forall_mem_cons.2 ⟨more, fun r member => more.trans (ih r member)⟩

theorem pairwise (h : Rising c reports d) :
    reports.Pairwise fun r r' => r.counters.Le r'.counters := by
  induction h with
  | nil _ => exact .nil
  | cons _ others ih => exact .cons others.le_of_mem ih

theorem last (h : Rising c reports d) : ∀ r ∈ reports.getLast?, r.counters = d := by
  induction h with
  | nil _ => exact fun _ none => nomatch none
  | @cons c d r reports _ others ih =>
    cases others with
    | nil _ =>
      rintro _ ⟨⟩
      rfl
    | cons _ _ => rwa [List.getLast?_cons_cons]

end Rising

/-! ## Moves and what they tell -/

variable {σ : Type}

/-- Nothing is told, and neither steps nor errors are added to the run. -/
structure Silent (s t : MigrationState σ) : Prop where
  events : t.events = s.events
  steps : t.run.steps = s.run.steps
  errors : t.run.errors = s.run.errors

namespace Silent

theorem refl (s : MigrationState σ) : Silent s s := ⟨rfl, rfl, rfl⟩

theorem trans {s t u : MigrationState σ} (h : Silent s t) (h' : Silent t u) : Silent s u :=
  ⟨h'.events.trans h.events, h'.steps.trans h.steps, h'.errors.trans h.errors⟩

theorem kept (m : Migration σ) : KeptUntold m (Silent (σ := σ)) where
  refl := refl
  trans := trans
  note _ _ _ := ⟨rfl, rfl, rfl⟩
  checkpoint s := by
    obtain ⟨run, control, changed, account, _⟩ := s.checkpoint_frame m
    rw [changed]
    exact ⟨rfl, account.steps, account.errors⟩
  files _ _ := ⟨rfl, rfl, rfl⟩

theorem goTo (m : Migration σ) (s : MigrationState σ) (next : RunStatus) :
    Silent s (s.goTo m next).1 := by
  obtain ⟨run, changed, account, _⟩ := s.goTo_frame m next
  rw [changed]
  exact ⟨rfl, account.steps, account.errors⟩

end Silent

/-- Reports on a step were told, and no step was added to the run meanwhile. -/
structure Reports (phase : RunStatus) (reports : List Standing) (s : MigrationState σ) (step : Step)
    (t : MigrationState σ) (step' : Step) : Prop where
  events : t.events = s.events ++ reports.map (Standing.event phase step.entity)
  steps : t.run.steps = s.run.steps
  errors : t.run.errors = s.run.errors
  entity : step'.entity = step.entity
  rising : Rising step.counters reports step'.counters

namespace Reports

variable {phase : RunStatus} {reports reports' : List Standing} {s t u : MigrationState σ}
  {step step' step'' : Step}

theorem nil (phase : RunStatus) (silent : Silent s t) (entity : step'.entity = step.entity)
    (counters : step'.counters = step.counters) : Reports phase [] s step t step' where
  events := by rw [silent.events, List.map_nil, List.append_nil]
  steps := silent.steps
  errors := silent.errors
  entity := entity
  rising := by
    rw [counters]
    exact .nil _

theorem trans (h : Reports phase reports s step t step')
    (h' : Reports phase reports' t step' u step'') :
    Reports phase (reports ++ reports') s step u step'' where
  events := by rw [h'.events, h.events, h.entity, List.map_append, List.append_assoc]
  steps := h'.steps.trans h.steps
  errors := h'.errors.trans h.errors
  entity := h'.entity.trans h.entity
  rising := h.rising.trans h'.rising

theorem silent (h : Reports phase reports s step t step') (further : Silent t u) :
    Reports phase reports s step u step' where
  events := further.events.trans h.events
  steps := further.steps.trans h.steps
  errors := further.errors.trans h.errors
  entity := h.entity
  rising := h.rising

/-- Work that only counts, then a report on it, then moves that tell nothing. -/
theorem single {v w : MigrationState σ} (total : Nat) (message : String) (worked : Silent s v)
    (entity : step'.entity = step.entity) (more : step.counters.Le step'.counters)
    (told : w = v.emit (.ofProgress phase step' total message)) (further : Silent w t) :
    ∃ reports, Reports phase reports s step t step' := by
  subst told
  refine ⟨[⟨step'.counters, total, message⟩], ?_, further.steps.trans worked.steps,
    further.errors.trans worked.errors, entity, .cons more (.nil _)⟩
  rw [further.events, MigrationState.emit, worked.events]
  simp only [ProgressEvent.ofProgress, entity]
  rfl

/-- What batches report, all of them report, as far as they come. -/
theorem overBatches {α β : Type} (state : β → MigrationState σ) (step : β → Step)
    {work : β → List α → β × Option (Stop MigrationError)} {batches : List (List α)}
    (each : ∀ b, ∀ batch ∈ batches, ∃ reports,
      Reports phase reports (state b) (step b) (state (work b batch).1) (step (work b batch).1))
    (start : β) :
    ∃ reports, Reports phase reports (state start) (step start)
      (state (overBatches work batches start).1) (step (overBatches work batches start).1) :=
  overBatches_keeps
    (R := fun b c => ∃ reports, Reports phase reports (state b) (step b) (state c) (step c))
    (fun _ => ⟨[], .nil phase (.refl _) rfl rfl⟩)
    (fun ⟨_, h⟩ ⟨_, h'⟩ => ⟨_, h.trans h'⟩) batches each start

end Reports

/-- Steps were added to a run, and told one after the other. -/
def Mirrors (s t : MigrationState σ) : Prop :=
  ∃ (added : List Step) (told : List (List ProgressEvent)),
    t.run.steps = s.run.steps ++ added ∧ t.events = s.events ++ told.flatten ∧
    List.Forall₂ Recounts added told ∧ t.run.errors = s.run.errors

namespace Mirrors

variable {s t u : MigrationState σ}

theorem of_silent (h : Silent s t) : Mirrors s t :=
  ⟨[], [], by rw [h.steps, List.append_nil], by rw [h.events]; exact (List.append_nil _).symm, .nil,
    h.errors⟩

theorem refl (s : MigrationState σ) : Mirrors s s := of_silent (.refl s)

theorem newStep (m : Migration σ) (s : MigrationState σ) (name entity : String)
    (phase : RunStatus) : Mirrors s (s.newStep m name entity phase).1 :=
  of_silent ⟨rfl, rfl, rfl⟩

theorem trans (h : Mirrors s t) (h' : Mirrors t u) : Mirrors s u := by
  obtain ⟨added, told, steps, events, recounts, errors⟩ := h
  obtain ⟨added', told', steps', events', recounts', errors'⟩ := h'
  refine ⟨added ++ added', told ++ told', ?_, ?_, List.rel_append recounts recounts',
    errors'.trans errors⟩
  · rw [steps', steps, List.append_assoc]
  · rw [events', events, List.flatten_append, List.append_assoc]

theorem andThen {p : Progressed σ} {f : MigrationState σ → Progressed σ} (first : Mirrors s p.1)
    (next : ∀ t, Mirrors t (f t).1) : Mirrors s (p.andThen f).1 := by
  obtain ⟨t, _ | stop⟩ := p
  · exact first.trans (next t)
  · exact first

/-- A step that was reported on ends. -/
theorem finishStep (m : Migration σ) {phase : RunStatus} {reports : List Standing}
    {opened step : Step} (outcome : Option MigrationError)
    (h : Reports phase reports s opened t step) : Mirrors s (t.finishStep m step outcome) := by
  let closed := step.closed outcome m.now
  refine ⟨[closed], [reports.map (Standing.event phase closed.entity) ++ [.ofStep closed]], ?_, ?_,
    .cons ⟨phase, reports, rfl, h.rising.pairwise, h.rising.last⟩ .nil, h.errors⟩
  · rw [t.finishStep_steps m, h.steps]
  · have told : (t.finishStep m step outcome).events = t.events ++ [.ofStep closed] := rfl
    have entity : closed.entity = opened.entity := h.entity
    rw [told, h.events, entity, List.flatten_singleton, List.append_assoc]

end Mirrors

/-- What work tells on its way: the steps that it ends, and at a standstill perhaps how far it has
come with one more. -/
inductive Tells (s : MigrationState σ) : Progressed σ → Prop
  | whole {p : Progressed σ} (mirrors : Mirrors s p.1) : Tells s p
  | partly {t u : MigrationState σ} {why : Standstill} {phase : RunStatus}
    {reports : List Standing} {opened step : Step} (mirrors : Mirrors s t)
    (reported : Reports phase reports t opened u step) : Tells s (u, some (.standstill why))

namespace Tells

variable {s t u : MigrationState σ} {p : Progressed σ} {stop : Option (Stop MigrationError)}

theorem behind (first : Mirrors s t) (h : Tells t p) : Tells s p := by
  cases h with
  | whole mirrors => exact .whole (first.trans mirrors)
  | partly mirrors reported => exact .partly (first.trans mirrors) reported

theorem andThen (h : Tells s p) {f : MigrationState σ → Progressed σ}
    (next : ∀ t, Tells t (f t)) : Tells s (p.andThen f) := by
  cases h with
  | whole mirrors =>
    obtain ⟨t, _ | stop⟩ := p
    · exact (next t).behind mirrors
    · exact .whole mirrors
  | partly mirrors reported => exact .partly mirrors reported

theorem silent (h : Tells s (t, stop)) (further : Silent t u) : Tells s (u, stop) := by
  cases h with
  | whole mirrors => exact .whole (mirrors.trans (.of_silent further))
  | partly mirrors reported => exact .partly mirrors (reported.silent further)

/-- The work of a step that was reported on ends, or comes to a standstill. -/
theorem endStep (m : Migration σ) {phase : RunStatus} {reports : List Standing}
    {opened step : Step} (stop : Option (Stop MigrationError)) (first : Mirrors s t)
    (h : Reports phase reports t opened u step) : Tells s (u.endStep m step stop, stop) := by
  obtain _ | ⟨e⟩ | ⟨why⟩ := stop
  · exact .whole (first.trans (.finishStep m none h))
  · exact .whole (first.trans (.finishStep m (some e) h))
  · exact .partly first h

/-- Work that came to no standstill has told all its steps. -/
theorem mirrors {outcome : Option MigrationError} (h : Tells s p)
    (back : p.2 = outcome.map .error) : Mirrors s p.1 := by
  cases h with
  | whole mirrors => exact mirrors
  | partly _ _ => cases outcome <;> cases back

end Tells

namespace Migration

variable (m : Migration σ)

/-! ## Extraction -/

end Migration

end DataMigration
