import DataMigration.Migration.Run
import DataMigration.Proofs.Migration.Checkpoint
import Mathlib.Data.List.Chain

/-!
# The history of a run

Whatever a new run is asked, it takes on its statuses in one order. A pause is a detour: the run
returns to the phase that it left, or it ends. Without its detours every history is the beginning of
the one course of a run, perhaps cut off by a failure or a cancellation.
-/

namespace DataMigration

namespace RunStatus

/-- The statuses of a run that nothing stops, up to its rollback. -/
def course : List RunStatus :=
  [.extracting, .transforming, .validating, .loading, .completed, .rollingBack, .rolledBack]

/-- The run breaks off. -/
def IsBreak (status : RunStatus) : Prop := status = .failed ∨ status = .cancelled

instance : DecidablePred IsBreak := fun status =>
  inferInstanceAs (Decidable (status = .failed ∨ status = .cancelled))

/-- A history without its pauses. The return to the status before a pause is left out with it. -/
def withoutPauses (before : RunStatus) : List RunStatus → List RunStatus
  | [] => []
  | [.paused] => []
  | .paused :: next :: rest =>
    if next = before then withoutPauses before rest else next :: withoutPauses next rest
  | next :: rest => next :: withoutPauses next rest

theorem withoutPauses_cons {before next : RunStatus} (rest : List RunStatus)
    (h : next ≠ .paused) :
    withoutPauses before (next :: rest) = next :: withoutPauses next rest := by
  cases next <;> first | rfl | exact absurd rfl h

theorem withoutPauses_resume (before : RunStatus) (rest : List RunStatus) :
    withoutPauses before (.paused :: before :: rest) = withoutPauses before rest := by
  rw [withoutPauses, if_pos rfl]

theorem withoutPauses_break {before next : RunStatus} (rest : List RunStatus) (h : next ≠ before) :
    withoutPauses before (.paused :: next :: rest) = next :: withoutPauses next rest := by
  rw [withoutPauses, if_neg h]

/-- The one status may follow the other without a pause. -/
def Leads (a b : RunStatus) : Prop := b ≠ .paused ∧ canGo none a b = true

instance : DecidableRel Leads := fun _ _ => inferInstanceAs (Decidable (_ ∧ _))

theorem isActive_iff {status : RunStatus} : status.isActive = true ↔
    status = .extracting ∨ status = .transforming ∨ status = .validating ∨ status = .loading := by
  cases status <;> decide

theorem isFinal_iff {status : RunStatus} : status.isFinal = true ↔
    status = .completed ∨ status = .failed ∨ status = .cancelled ∨ status = .rolledBack := by
  cases status <;> decide

theorem IsBreak.isActive {status : RunStatus} (h : IsBreak status) : status.isActive = false := by
  obtain rfl | rfl := h <;> rfl

theorem ne_paused_of_isActive {status : RunStatus} (h : status.isActive = true) :
    status ≠ .paused := by
  rintro rfl
  cases h

theorem isFinal_of_isActive {status : RunStatus} (h : status.isActive = true) :
    status.isFinal = false := by
  cases status <;> first | rfl | cases h

/-- The part of the course that is left in a status. -/
def ahead : RunStatus → List RunStatus
  | .pending => course
  | status => course.drop (course.idxOf status + 1)

theorem leads_iff {a b : RunStatus} :
    Leads a b ↔ a.ahead.head? = some b ∨ IsBreak b ∧ a.isFinal = false := by
  cases a <;> cases b <;> decide

/-- A run pauses in a phase, returns to the phase that it left, breaks off, or follows the
course. -/
theorem canGo_iff {pausedFrom : Option RunStatus} {a b : RunStatus}
    (paused : (∃ p, pausedFrom = some p) ↔ a = .paused)
    (active : ∀ p, pausedFrom = some p → p.isActive = true) :
    canGo pausedFrom a b = true ↔
      b = .paused ∧ a.isActive = true ∨ pausedFrom = some b ∨ IsBreak b ∧ a.isFinal = false ∨
        a.ahead.head? = some b := by
  cases pausedFrom with
  | none =>
    have going : a ≠ .paused := fun same => nomatch paused.2 same
    clear paused active
    revert going
    cases a <;> cases b <;> decide
  | some p =>
    obtain rfl := paused.1 ⟨p, rfl⟩
    have active := active p rfl
    revert active
    cases p <;> cases b <;> decide

/-- A phase follows another phase or begins the run. -/
theorem active_of_leads {a b : RunStatus} (h : Leads a b) (active : b.isActive = true) :
    a = .pending ∧ b = .extracting ∨ a.isActive = true := by
  revert h active
  cases a <;> cases b <;> decide

theorem ahead_of_head? {a b : RunStatus} (h : a.ahead.head? = some b) : a.ahead = b :: b.ahead := by
  cases a <;> first | (cases h; rfl) | cases h

theorem ahead_of_isBreak {a : RunStatus} (h : IsBreak a) : a.ahead = [] := by
  obtain rfl | rfl := h <;> rfl

/-- A chain of statuses is a beginning of what is ahead, perhaps with a break at its end. -/
theorem exists_break_of_isChain {a : RunStatus} {statuses : List RunStatus}
    (chain : (a :: statuses).IsChain Leads) :
    ∃ kept ending, statuses = kept ++ ending ∧ kept <+: a.ahead ∧
      (ending = [] ∨ ∃ b, ending = [b] ∧ IsBreak b ∧ (kept.getLast?.getD a).isFinal = false) := by
  induction statuses generalizing a with
  | nil => exact ⟨[], [], rfl, List.nil_prefix, .inl rfl⟩
  | cons b rest ih =>
    obtain ⟨leads, chain⟩ := List.isChain_cons_cons.1 chain
    obtain ⟨kept, ending, rfl, begins, ends⟩ := ih chain
    obtain next | ⟨breaks, lasting⟩ := leads_iff.1 leads
    · refine ⟨b :: kept, ending, rfl, ?_, ?_⟩
      · rw [ahead_of_head? next]
        exact List.cons_prefix_cons.2 ⟨rfl, begins⟩
      · simpa only [List.getLast?_cons, Option.getD_some] using ends
    · -- nothing is ahead of a break, not even another one
      rw [ahead_of_isBreak breaks, List.prefix_nil] at begins
      subst begins
      obtain rfl | ⟨b', rfl, _, lasting'⟩ := ends
      · exact ⟨[], [b], rfl, List.nil_prefix, .inr ⟨b, rfl, breaks, lasting⟩⟩
      · obtain rfl | rfl := breaks <;> cases lasting'

end RunStatus

namespace Run

/-- A status that a run is asked to take on, and the time at which it is asked. -/
structure Demand where
  status : RunStatus
  time : Calendar.Instant

/-- The run after a demand, and the error with which the demand is refused, if it is. -/
def ask (r : Run) (d : Demand) : Run × Option MigrationError :=
  match r.goTo? d.status d.time with
  | some r' => (r', none)
  | none => (r, some (.transition r.status d.status))

theorem ask_refused {r : Run} {d : Demand} (h : (r.ask d).2.isSome = true) :
    (r.ask d).1 = r := by
  revert h
  unfold ask
  split
  · exact fun h => nomatch h
  · exact fun _ => rfl

theorem ask_accepted_iff {r : Run} {d : Demand} :
    (r.ask d).2 = none ↔ r.status.canGo r.pausedFrom d.status = true := by
  rw [← Bool.not_eq_false, ← @goTo?_eq_none_iff r d.status d.time]
  unfold ask
  cases r.goTo? d.status d.time <;> simp

/-- The run after demands, and the statuses that it took on, in order. -/
def askAll (r : Run) : List Demand → Run × List RunStatus
  | [] => (r, [])
  | d :: ds =>
    match r.ask d with
    | (r', none) => ((askAll r' ds).1, d.status :: (askAll r' ds).2)
    | (r', some _) => askAll r' ds

/-- A run knows the phase to return to exactly while it is paused, and when it began once it is at
work. -/
structure Consistent (r : Run) : Prop where
  pausedFrom : (∃ p, r.pausedFrom = some p) ↔ r.status = .paused
  active : ∀ p, r.pausedFrom = some p → p.isActive = true
  started : (Migration.currentPhase r).isActive = true → r.startedAt.isSome = true

theorem currentPhase_of_paused {r : Run} {p : RunStatus} (paused : r.status = .paused)
    (h : r.pausedFrom = some p) : Migration.currentPhase r = p := by
  rw [Migration.currentPhase, if_pos paused, h, Option.getD_some]

theorem currentPhase_of_ne_paused {r : Run} (h : r.status ≠ .paused) :
    Migration.currentPhase r = r.status := if_neg h

theorem Consistent.active_currentPhase {r : Run} (consistent : r.Consistent)
    (paused : r.status = .paused) : (Migration.currentPhase r).isActive = true := by
  obtain ⟨p, left⟩ := consistent.pausedFrom.2 paused
  rw [currentPhase_of_paused paused left]
  exact consistent.active p left

theorem Consistent.canGo_iff {r : Run} {next : RunStatus} (consistent : r.Consistent) :
    r.status.canGo r.pausedFrom next = true ↔
      next = .paused ∧ r.status.isActive = true ∨ r.pausedFrom = some next ∨
        RunStatus.IsBreak next ∧ r.status.isFinal = false ∨ r.status.ahead.head? = some next :=
  RunStatus.canGo_iff consistent.pausedFrom consistent.active

/-- What an accepted demand does: it pauses a phase, resumes the phase that was paused, or leads on
from the current phase; and a paused run is only led to a break. -/
theorem goTo?_cases {r r' : Run} {next : RunStatus} {now : Calendar.Instant}
    (consistent : r.Consistent) (h : r.goTo? next now = some r') :
    (next = .paused ∧ r.status.isActive = true) ∨
    (r.status = .paused ∧ next = Migration.currentPhase r ∧ next.isActive = true) ∨
    (RunStatus.Leads (Migration.currentPhase r) next ∧
      (r.status = .paused → RunStatus.IsBreak next ∧ next ≠ Migration.currentPhase r)) := by
  have may : r.status.canGo r.pausedFrom next = true := by
    rw [← Bool.not_eq_false, ← @goTo?_eq_none_iff r next now, h]
    exact Option.some_ne_none r'
  obtain pauses | left | ⟨breaks, lasting⟩ | follows := consistent.canGo_iff.1 may
  · exact .inl pauses
  · have paused := consistent.pausedFrom.1 ⟨next, left⟩
    exact .inr (.inl ⟨paused, (currentPhase_of_paused paused left).symm,
      consistent.active next left⟩)
  · refine .inr (.inr ⟨RunStatus.leads_iff.2 (.inr ⟨breaks, ?_⟩), fun paused => ⟨breaks, ?_⟩⟩)
    · by_cases paused : r.status = .paused
      · exact RunStatus.isFinal_of_isActive (consistent.active_currentPhase paused)
      · rwa [currentPhase_of_ne_paused paused]
    · rintro rfl
      have active := consistent.active_currentPhase paused
      rw [breaks.isActive] at active
      cases active
  · have going : r.status ≠ .paused := fun paused => by rw [paused] at follows; cases follows
    refine .inr (.inr ⟨?_, fun paused => absurd paused going⟩)
    rw [currentPhase_of_ne_paused going]
    exact RunStatus.leads_iff.2 (.inl follows)

/-- What an accepted demand leaves. -/
structure Reached (r r' : Run) (next : RunStatus) (now : Calendar.Instant) : Prop where
  status : r'.status = next
  phase : Migration.currentPhase r' = if next = .paused then r.status else next
  pausedFrom : r'.pausedFrom = if next = .paused then some r.status else none
  startedAt : r'.startedAt =
    if r.status = .pending ∧ next = .extracting then some now else r.startedAt
  completedAt : r'.completedAt = if next.isFinal then some now else r.completedAt

theorem reached_of_goTo? {r r' : Run} {next : RunStatus} {now : Calendar.Instant}
    (h : r.goTo? next now = some r') : Reached r r' next now := by
  unfold goTo? at h
  split at h
  · cases h
    refine ⟨rfl, ?_, rfl, rfl, rfl⟩
    simp only [Migration.currentPhase]
    split <;> rfl
  · cases h

theorem Consistent.goTo? {r r' : Run} {next : RunStatus} {now : Calendar.Instant}
    (consistent : r.Consistent) (h : r.goTo? next now = some r') : r'.Consistent := by
  have reached := reached_of_goTo? h
  have before : r.startedAt.isSome = true → r'.startedAt.isSome = true := by
    intro started
    rw [reached.startedAt]
    split
    · rfl
    · exact started
  obtain ⟨rfl, active⟩ | ⟨paused, rfl, active⟩ | ⟨leads, breaks⟩ := goTo?_cases consistent h
  · have going := RunStatus.ne_paused_of_isActive active
    refine ⟨by simp [reached.pausedFrom, reached.status], ?_, fun _ => before ?_⟩
    · intro p left
      rw [reached.pausedFrom, if_pos rfl] at left
      cases left
      exact active
    · exact consistent.started (by rwa [currentPhase_of_ne_paused going])
  · have going := RunStatus.ne_paused_of_isActive active
    refine ⟨by simp [reached.pausedFrom, reached.status, going], ?_, fun _ => before ?_⟩
    · intro p left
      rw [reached.pausedFrom, if_neg going] at left
      cases left
    · exact consistent.started active
  · refine ⟨by simp [reached.pausedFrom, reached.status, leads.1], ?_, fun active => ?_⟩
    · intro p left
      rw [reached.pausedFrom, if_neg leads.1] at left
      cases left
    · rw [reached.phase, if_neg leads.1] at active
      obtain ⟨begins, rfl⟩ | going := RunStatus.active_of_leads leads active
      · have pending : r.status = .pending := by
          rw [← currentPhase_of_ne_paused fun paused => ?_]
          · exact begins
          · exact absurd (breaks paused).1 (by decide)
        rw [reached.startedAt, if_pos ⟨pending, rfl⟩]
        rfl
      · exact before (consistent.started going)

/-- What the demands lead to, with the pause in which they find the run. -/
theorem isChain_askAll {r : Run} (consistent : r.Consistent) (ds : List Demand) :
    (Migration.currentPhase r :: RunStatus.withoutPauses (Migration.currentPhase r)
      ((if r.status = .paused then [.paused] else []) ++ (r.askAll ds).2)).IsChain
      RunStatus.Leads := by
  induction ds generalizing r with
  | nil =>
    simp only [askAll, List.append_nil]
    split <;> exact List.isChain_singleton _
  | cons d ds ih =>
    cases goes : r.goTo? d.status d.time with
    | none =>
      simp only [askAll, ask, goes]
      exact ih consistent
    | some r' =>
      simp only [askAll, ask, goes]
      have further := ih (consistent.goTo? goes)
      have reached := reached_of_goTo? goes
      rw [reached.status, reached.phase] at further
      obtain ⟨pauses, active⟩ | ⟨paused, back, active⟩ | ⟨leads, breaks⟩ :=
        goTo?_cases consistent goes
      · have going := RunStatus.ne_paused_of_isActive active
        rw [if_pos pauses, if_pos pauses] at further
        rw [if_neg going, currentPhase_of_ne_paused going, pauses]
        exact further
      · have going := RunStatus.ne_paused_of_isActive active
        rw [if_neg going, if_neg going] at further
        rw [if_pos paused, ← back, List.singleton_append, RunStatus.withoutPauses_resume]
        exact further
      · rw [if_neg leads.1, if_neg leads.1] at further
        have next := List.isChain_cons_cons.2 ⟨leads, further⟩
        by_cases paused : r.status = .paused
        · rw [if_pos paused, List.singleton_append,
            RunStatus.withoutPauses_break _ (breaks paused).2]
          exact next
        · rw [if_neg paused, List.nil_append, RunStatus.withoutPauses_cons _ leads.1]
          exact next

/-- A run has begun when it extracts for the first time. -/
theorem Consistent.startedAt_goTo? {r r' : Run} {next : RunStatus} {now : Calendar.Instant}
    (consistent : r.Consistent) (h : r.goTo? next now = some r') :
    r'.startedAt.isSome = true ↔ r.startedAt.isSome = true ∨ next = .extracting := by
  rw [(reached_of_goTo? h).startedAt]
  by_cases begins : r.status = .pending ∧ next = .extracting
  · simp [begins]
  · rw [if_neg begins, iff_self_or]
    rintro rfl
    obtain ⟨pauses, _⟩ | ⟨_, back, active⟩ | ⟨leads, breaks⟩ := goTo?_cases consistent h
    · cases pauses
    · exact consistent.started (back ▸ active)
    · have going : r.status ≠ .paused := fun paused => absurd (breaks paused).1 (by decide)
      rw [currentPhase_of_ne_paused going] at leads
      refine absurd ⟨?_, rfl⟩ begins
      revert leads
      generalize r.status = a
      cases a <;> decide

theorem completedAt_goTo? {r r' : Run} {next : RunStatus} {now : Calendar.Instant}
    (h : r.goTo? next now = some r') :
    r'.completedAt.isSome = true ↔ r.completedAt.isSome = true ∨ next.isFinal = true := by
  rw [(reached_of_goTo? h).completedAt]
  split <;> simp_all

/-- What stays true of a consistent run that is asked, and when its times are set. -/
theorem Consistent.askAll {r : Run} (consistent : r.Consistent) (ds : List Demand) :
    (r.askAll ds).1.Consistent ∧
    ((r.askAll ds).1.startedAt.isSome = true ↔
      r.startedAt.isSome = true ∨ .extracting ∈ (r.askAll ds).2) ∧
    ((r.askAll ds).1.completedAt.isSome = true ↔
      r.completedAt.isSome = true ∨ ∃ status ∈ (r.askAll ds).2, status.isFinal = true) := by
  induction ds generalizing r with
  | nil => simpa [Run.askAll] using consistent
  | cons d ds ih =>
    cases goes : r.goTo? d.status d.time with
    | none =>
      simp only [Run.askAll, ask, goes]
      exact ih consistent
    | some r' =>
      simp only [Run.askAll, ask, goes]
      obtain ⟨kept, started, completed⟩ := ih (consistent.goTo? goes)
      refine ⟨kept, ?_, ?_⟩
      · rw [started, consistent.startedAt_goTo? goes, List.mem_cons, or_assoc,
          eq_comm (a := d.status)]
      · rw [completed, completedAt_goTo? goes, List.exists_mem_cons_iff, or_assoc]

/-- A run that nothing was asked of. -/
def begun (id name : String) (now : Calendar.Instant) : Run := { id, name, createdAt := now }

theorem begun_consistent (id name : String) (now : Calendar.Instant) :
    (begun id name now).Consistent where
  pausedFrom := by simp [begun]
  active := fun _ left => nomatch left
  started := fun active => nomatch active

/-- Whatever a new run is asked: a refused demand changes nothing; the run knows the phase to return
to exactly while it is paused; without its pauses its history is a beginning of the course, perhaps
with one break at its end; and its times are set by the first extraction and by its ends. What it
accepts is a pause in a phase, the return from it, a break before its end, and the next status of
the course. -/
theorem begun_askAll (id name : String) (now : Calendar.Instant) (ds : List Demand) :
    let run := ((begun id name now).askAll ds).1
    let accepted := ((begun id name now).askAll ds).2
    (∀ d, (run.ask d).2.isSome = true → (run.ask d).1 = run) ∧
    ((∃ p, run.pausedFrom = some p) ↔ run.status = .paused) ∧
    (∀ p, run.pausedFrom = some p →
      p = .extracting ∨ p = .transforming ∨ p = .validating ∨ p = .loading) ∧
    (∃ kept ending, RunStatus.withoutPauses .pending accepted = kept ++ ending ∧
      kept <+: [.extracting, .transforming, .validating, .loading, .completed, .rollingBack,
        .rolledBack] ∧
      (ending = [] ∨ (ending = [.failed] ∨ ending = [.cancelled]) ∧
        kept.getLast? ≠ some .completed ∧ kept.getLast? ≠ some .rolledBack)) ∧
    (run.startedAt.isSome = true ↔ .extracting ∈ accepted) ∧
    (run.completedAt.isSome = true ↔ .completed ∈ accepted ∨ .failed ∈ accepted ∨
      .cancelled ∈ accepted ∨ .rolledBack ∈ accepted) ∧
    (∀ d, (run.ask d).2 = none ↔
      d.status = .paused ∧ run.status.isActive = true ∨ run.pausedFrom = some d.status ∨
        (d.status = .failed ∨ d.status = .cancelled) ∧ run.status.isFinal = false ∨
        run.status.ahead.head? = some d.status) := by
  intro run accepted
  have consistent := begun_consistent id name now
  obtain ⟨kept, started, completed⟩ := consistent.askAll ds
  have chain := isChain_askAll consistent ds
  obtain ⟨way, ending, whole, begins, ends⟩ := RunStatus.exists_break_of_isChain chain
  refine ⟨fun _ => ask_refused, kept.pausedFrom,
    fun p left => RunStatus.isActive_iff.1 (kept.active p left), ⟨way, ending, whole, begins, ?_⟩,
    started.trans (or_iff_right Bool.false_ne_true),
    completed.trans ((or_iff_right Bool.false_ne_true).trans ?_),
    fun d => ask_accepted_iff.trans kept.canGo_iff⟩
  · obtain none | ⟨last, rfl, breaks, lasting⟩ := ends
    · exact .inl none
    · refine .inr ⟨by simpa [RunStatus.IsBreak] using breaks, ?_, ?_⟩ <;>
      · intro ended
        rw [ended] at lasting
        cases lasting
  · simp only [RunStatus.isFinal_iff, and_or_left, exists_or, exists_eq_right, accepted]

end Run

/-- A migration goes to another status by asking its run. -/
theorem MigrationState.goTo_eq_ask {σ : Type} (m : Migration σ) (s : MigrationState σ)
    (next : RunStatus) :
    s.goTo m next =
      ({ s with run := (s.run.ask ⟨next, m.now⟩).1 },
        (s.run.ask ⟨next, m.now⟩).2.map Stop.error) := by
  unfold goTo Run.ask
  split <;> simp_all

end DataMigration
