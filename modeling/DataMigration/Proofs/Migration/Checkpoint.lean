import DataMigration.Migration.State

/-!
# Changes of status and checkpoints

A run that goes to another status keeps its account: its steps, its counters and what it created. A
checkpoint changes no more than that, whatever is requested; and a run that is paused in a phase
resumes as if it had never been paused.
-/

namespace DataMigration

namespace Control

@[simp] theorem look_signal (c : Control) : c.look.signal = c.signal := rfl

@[simp] theorem look_seen (c : Control) : c.look.seen = c.signal :: c.seen := rfl

theorem waited_seen {c waited : Control} (h : c.waited = some waited) : waited.seen = c.seen := by
  simp only [Control.waited, Option.map_eq_some_iff] at h
  obtain ⟨_, _, rfl⟩ := h
  rfl

end Control

/-- The account of a run without its status and its times. -/
structure Run.SameAccount (r r' : Run) : Prop where
  steps : r'.steps = r.steps
  errors : r'.errors = r.errors
  created : r'.created = r.created

namespace Run

theorem SameAccount.refl (r : Run) : SameAccount r r := ⟨rfl, rfl, rfl⟩

theorem SameAccount.trans {r r' r'' : Run} (h : SameAccount r r') (h' : SameAccount r' r'') :
    SameAccount r r'' :=
  ⟨h'.steps.trans h.steps, h'.errors.trans h.errors, h'.created.trans h.created⟩

theorem goTo?_sameAccount {r r' : Run} {next : RunStatus} {now : Calendar.Instant}
    (h : r.goTo? next now = some r') : SameAccount r r' := by
  unfold goTo? at h
  split at h
  · cases h
    exact ⟨rfl, rfl, rfl⟩
  · cases h

theorem goTo?_eq_none_iff {r : Run} {next : RunStatus} {now : Calendar.Instant} :
    r.goTo? next now = none ↔ r.status.canGo r.pausedFrom next = false := by
  unfold goTo?
  split <;> simp_all

/-- A run does not pause while it is rolled back, so it cannot come back to that. -/
theorem goTo?_pausedFrom {r r' : Run} {next : RunStatus} {now : Calendar.Instant}
    (h : r.goTo? next now = some r') : r'.pausedFrom ≠ some .rollingBack := by
  unfold goTo? at h
  split at h <;> cases h
  rename_i may
  by_cases pauses : next = .paused
  · subst pauses
    intro back
    rw [if_pos rfl] at back
    rw [Option.some.inj back] at may
    cases may
  · simp [pauses]

theorem goTo?_status {r r' : Run} {next : RunStatus} {now : Calendar.Instant}
    (h : r.goTo? next now = some r') : r'.status = next := by
  unfold goTo? at h
  split at h
  · cases h
    rfl
  · cases h

/-- A run may always go on to the phase that follows. -/
theorem goTo?_next {r : Run} {next : RunStatus} (now : Calendar.Instant)
    (follows : r.status.next? = some next) :
    ∃ r', r.goTo? next now = some r' ∧ r'.status = next ∧ r'.pausedFrom = none ∧
      r'.errors = r.errors := by
  have may : r.status.canGo r.pausedFrom next = true := by
    cases h : r.status <;> rw [h] at follows <;> cases follows <;> rfl
  have active : next ≠ .paused := by
    cases h : r.status <;> rw [h] at follows <;> cases follows <;> decide
  refine ⟨_, if_pos may, rfl, if_neg active, rfl⟩

/-- A run that pauses in a phase resumes as it was. -/
theorem pause_resume {r : Run} (now : Calendar.Instant) (active : r.status.isActive = true)
    (unpaused : r.pausedFrom = none) :
    ∃ paused, r.goTo? .paused now = some paused ∧ paused.status = .paused ∧
      r.SameAccount paused ∧ paused.goTo? r.status now = some r := by
  refine ⟨{ r with status := .paused, pausedFrom := some r.status }, ?_, rfl, ⟨rfl, rfl, rfl⟩, ?_⟩
  · have may : r.status.canGo r.pausedFrom .paused = true := by
      cases h : r.status <;> simp_all [RunStatus.canGo, RunStatus.isActive]
    simp [goTo?, may, RunStatus.isFinal]
  · have may : RunStatus.canGo (some r.status) .paused r.status = true := by
      cases h : r.status <;> simp_all [RunStatus.canGo, RunStatus.isActive]
    have lasting : r.status.isFinal = false ∧ r.status ≠ .paused := by
      cases h : r.status <;> simp_all [RunStatus.isActive, RunStatus.isFinal]
    obtain ⟨id, name, description, status, pausedFrom⟩ := r
    cases unpaused
    simp_all [goTo?]

end Run

namespace MigrationState

variable {σ : Type} (m : Migration σ) (s : MigrationState σ)

theorem goTo_frame (next : RunStatus) :
    ∃ run, (s.goTo m next).1 = { s with run } ∧ s.run.SameAccount run ∧
      (run.status = next ∨ run.status = s.run.status) := by
  unfold goTo
  split
  · rename_i run h
    exact ⟨run, rfl, Run.goTo?_sameAccount h, .inl (Run.goTo?_status h)⟩
  · exact ⟨s.run, rfl, .refl _, .inr rfl⟩

/-- Going to another status changes the account of the run only. -/
theorem goTo_unmoved {α : Type} (f : MigrationState σ → α) (own : ∀ s run, f { s with run } = f s)
    (next : RunStatus) : f (s.goTo m next).1 = f s := by
  obtain ⟨run, changed, _⟩ := goTo_frame m s next
  rw [changed]
  exact own s run

theorem goTo_of_canGo (next : RunStatus)
    (may : s.run.status.canGo s.run.pausedFrom next = true) :
    ∃ run, s.run.goTo? next m.now = some run ∧ s.goTo m next = ({ s with run }, none) := by
  cases goes : s.run.goTo? next m.now with
  | none => exact absurd may (by rw [Run.goTo?_eq_none_iff.1 goes]; decide)
  | some run => exact ⟨run, rfl, by simp only [goTo, goes]⟩

theorem heed_frame :
    ∃ run control, (s.heed m).1 = { s with run, control } ∧ s.run.SameAccount run ∧
      (run.status = .paused ∨ run.status = s.run.status) := by
  simp only [heed]
  split
  · exact ⟨s.run, _, rfl, .refl _, .inr rfl⟩
  · exact ⟨s.run, _, rfl, .refl _, .inr rfl⟩
  · obtain ⟨run, changed, account, status⟩ :=
      goTo_frame m { s with control := s.control.look } .paused
    revert changed
    generalize goTo m { s with control := s.control.look } .paused = p
    obtain ⟨paused, stop⟩ := p
    intro changed
    cases changed
    cases stop with
    | some e => exact ⟨run, _, rfl, account, status⟩
    | none =>
      simp only [Progressed.andThen]
      split
      · exact ⟨run, _, rfl, account, status⟩
      · split
        · exact ⟨run, _, rfl, account, status⟩
        · obtain ⟨resumed, changed, account', back⟩ := goTo_frame m _ s.run.status
          refine ⟨resumed, _, changed, account.trans account', ?_⟩
          obtain back | kept := back
          · exact .inr back
          · exact kept ▸ status

theorem heed_of_running (h : s.control.signal = .running) :
    s.heed m = ({ s with control := s.control.look }, none) := by
  simp only [heed, Control.look_signal, h]

theorem heed_of_cancelled (h : s.control.signal = .cancelled) :
    s.heed m = ({ s with control := s.control.look }, some (.error .cancelled)) := by
  simp only [heed, Control.look_signal, h]

/-- A run that is asked to pause in a phase waits. Then it goes on in that phase or stops, or it
waits for ever. -/
theorem heed_of_paused (h : s.control.signal = .paused) (active : s.run.status.isActive = true)
    (unpaused : s.run.pausedFrom = none) :
    ∃ run, run.status = .paused ∧ s.run.SameAccount run ∧
      ((∃ c, s.control.look.waited = some c ∧ c.signal ≠ .cancelled ∧
          s.heed m = ({ s with control := c.look }, none)) ∨
        (∃ c, s.control.look.waited = some c ∧ c.signal = .cancelled ∧
          s.heed m = ({ s with run, control := c.look }, some (.error .cancelled))) ∨
        (s.control.look.waited = none ∧
          s.heed m = ({ s with run, control := s.control.look }, some (.standstill .waits)))) := by
  obtain ⟨paused, pauses, status, account, resumes⟩ := s.run.pause_resume m.now active unpaused
  refine ⟨paused, status, account, ?_⟩
  cases waits : s.control.look.waited with
  | none =>
    refine .inr (.inr ⟨rfl, ?_⟩)
    simp only [heed, Control.look_signal, h, goTo, pauses, Progressed.andThen, waits]
  | some c =>
    by_cases ended : c.signal = .cancelled
    · refine .inr (.inl ⟨c, rfl, ended, ?_⟩)
      simp only [heed, Control.look_signal, h, goTo, pauses, Progressed.andThen, waits, ended,
        if_true]
    · refine .inl ⟨c, rfl, ended, ?_⟩
      simp only [heed, Control.look_signal, h, goTo, pauses, Progressed.andThen, waits, ended,
        if_false, resumes]

/-- A checkpoint changes the status of the run and its control, and leaves an activity. -/
theorem checkpoint_frame :
    ∃ run control, (s.checkpoint m).1 =
      { s with run, control, activities := .checkpoint :: s.activities } ∧
      s.run.SameAccount run ∧ (run.status = .paused ∨ run.status = s.run.status) := by
  obtain ⟨run, control, changed, account⟩ := heed_frame m (s.note m .checkpoint)
  exact ⟨run, control, changed, account⟩

end MigrationState

end DataMigration
