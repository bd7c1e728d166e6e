import DataMigration.Proofs.Migration.Interruption
import DataMigration.Proofs.Migration.Unasked
import Mathlib.Algebra.Ring.Nat

/-!
# How a run ends

A run that comes back is never left in the middle. Whatever stops it, be it a setting, an answer of
a source or of the target, or a request, it is completed, failed or cancelled when it is over, and
so is each of its steps. A failed run has one error, in the phase that it entered last. A run that
does not come back waits in a pause that no request ends, or cannot wait as long as its limit on
requests asks for.
-/

namespace DataMigration

/-- A status that has a next one is a status in which a run is at work or about to begin. -/
theorem RunStatus.of_next {status : RunStatus} (h : status.next?.isSome = true) :
    status.isFinal = false ∧ status ≠ .paused := by
  cases status <;> first | exact ⟨rfl, by decide⟩ | cases h

namespace MigrationState

end MigrationState

namespace Run

/-- The run is over, and the error that stopped it, if one did, is noted in the phase it was in. -/
structure EndedBy (r : Run) (outcome : Option MigrationError) (last : RunStatus) : Prop where
  status : r.status = MigrationState.endStatus outcome
  completedAt : r.completedAt.isSome = true
  errors : r.errors.map (fun e => (e.phase, e.message)) =
    (MigrationState.endErrors outcome).map fun e => (last, e.message)

theorem EndedBy.withTotals {r : Run} {outcome : Option MigrationError} {last : RunStatus}
    (h : r.EndedBy outcome last) : r.withTotals.EndedBy outcome last :=
  ⟨h.status, h.completedAt, h.errors⟩

theorem goTo?_completedAt {r r' : Run} {next : RunStatus} {now : Calendar.Instant}
    (h : r.goTo? next now = some r') (final : next.isFinal = true) : r'.completedAt = some now := by
  unfold goTo? at h
  split at h
  · cases h
    rfl
  · cases h

end Run

section Work

variable {σ : Type} {m : Migration σ}

/-- What comes of work in a phase when requests may come. -/
inductive Comes (phase : RunStatus) : Progressed σ → Prop
  | goesOn {s : MigrationState σ} (flowing : Flowing phase s) : Comes phase (s, none)
  /-- It stops in the phase, and nobody asked for that. -/
  | fails {s : MigrationState σ} {stop : Stop MigrationError} (unasked : stop.isAsked = false)
    (flowing : Flowing phase s) (lasting : phase.next?.isSome = true) : Comes phase (s, some stop)
  /-- Requests stop it. -/
  | cut {s : MigrationState σ} {stop : Stop MigrationError} (halted : Halted s stop) :
    Comes phase (s, some stop)

/-- Work that goes in lockstep with work without requests fails where that does, and that never
leaves its phase. -/
theorem Lockstep.comes {phase : RunStatus} {work work' : MigrationState σ → Progressed σ}
    (lockstep : Lockstep phase work work')
    (steady : ∀ {s}, s.control.signal = .running → Steady s (work' s).1)
    (lasting : phase.next?.isSome = true) {s : MigrationState σ} (flowing : Flowing phase s) :
    Comes phase (work s) := by
  have follows := lockstep s {} flowing rfl
  have kept : Steady (s.under {}) (work' (s.under {})).1 := steady rfl
  revert follows kept
  simp only [Carrier.under]
  generalize work s = p, work' (s.under {}) = q
  intro follows kept
  cases follows with
  | goesOn flowing _ => exact .goesOn flowing
  | fails unasked unseen =>
    exact .fails unasked ⟨kept.status.trans flowing.status, kept.pausedFrom.trans flowing.unpaused,
      kept.errors.trans flowing.errors, unseen⟩ lasting
  | cut halted _ => exact .cut halted

end Work

theorem Progressed.andThen_assoc {σ : Type} (p : Progressed σ)
    (f g : MigrationState σ → Progressed σ) :
    (p.andThen f).andThen g = p.andThen fun s => (f s).andThen g := by
  obtain ⟨s, _ | e⟩ := p <;> rfl

namespace Migration

variable {σ : Type} (m : Migration σ)

/-! ## The phases as stages -/

/-- A phase and the work in it. -/
abbrev Stage (σ : Type) := RunStatus × (MigrationState σ → Progressed σ)

/-- The phases in their order. -/
def stages (mapping : Mapping) : List (Stage σ) :=
  [(.extracting, m.runExtraction), (.transforming, m.runTransformation mapping),
    (.validating, m.runValidation), (.loading, m.runLoading mapping)]

/-- Goes through stages until one stops. -/
def passThrough : List (Stage σ) → MigrationState σ → Progressed σ
  | [], s => (s, none)
  | (status, work) :: rest, s => (m.phase status work s).andThen (passThrough rest)

/-- The stages that are entered on the way through. -/
def enteredStages : List (Stage σ) → MigrationState σ → List RunStatus
  | [], _ => []
  | (status, work) :: rest, s =>
    match s.goTo m status with
    | (_, some _) => []
    | (s, none) =>
      status :: match work s with
        | (_, some _) => []
        | (s, none) => enteredStages rest s

/-- The phases that a run enters, in order. -/
def enteredPhases (s : MigrationState σ) : List RunStatus :=
  match m.config.check, m.resolveMapping (m.fresh s) with
  | .ok _, .ok mapping =>
    match m.preflight mapping (adopt mapping (m.fresh s)) with
    | (_, some _) => []
    | (s, none) => m.enteredStages (m.stages mapping) s
  | _, _ => []

theorem phases_eq_passThrough (mapping : Mapping) (s : MigrationState σ) :
    m.phases mapping s =
      (m.passThrough (m.stages mapping) s).andThen fun s => s.goTo m .completed := by
  have last : ∀ p : Progressed σ, p.andThen (fun s => (s, none)) = p := by
    rintro ⟨s, _ | e⟩ <;> rfl
  simp only [phases, prepare, stages, passThrough, Progressed.andThen_assoc, last]

variable {m}

/-- The run is in the stage that it entered last, whatever becomes of the work there. -/
theorem passThrough_comes {stages : List (Stage σ)}
    (works : ∀ stage ∈ stages, ∀ {s}, Flowing stage.1 s → Comes stage.1 (stage.2 s))
    {before : RunStatus} (inOrder : (before :: stages.map Prod.fst).IsChain (·.next? = some ·))
    {s : MigrationState σ} (flowing : Flowing before s) :
    Comes ((m.enteredStages stages s).getLast?.getD before) (m.passThrough stages s) := by
  induction stages generalizing before s with
  | nil => exact .goesOn flowing
  | cons stage rest ih =>
    obtain ⟨status, work⟩ := stage
    obtain ⟨follows, later⟩ := List.isChain_cons_cons.1 inOrder
    obtain ⟨run, goes, entered, unpaused, errors⟩ :=
      Run.goTo?_next m.now (flowing.status ▸ follows : s.run.status.next? = some status)
    have flows : Flowing status ({ s with run } : MigrationState σ) :=
      ⟨entered, unpaused, errors.trans flowing.errors, flowing.unseen⟩
    have worked := works _ List.mem_cons_self flows
    simp only [passThrough, enteredStages, phase, MigrationState.goTo, goes, Progressed.andThen,
      List.getLast?_cons, Option.getD_some] at worked ⊢
    revert worked
    generalize work { s with run } = p
    intro worked
    cases worked with
    | goesOn flowing =>
      exact ih (fun stage member => works stage (List.mem_cons_of_mem _ member)) later flowing
    | fails unasked flowing lasting => exact .fails unasked flowing lasting
    | cut halted => exact .cut halted

/-- A run that is through has entered all stages. -/
theorem enteredStages_of_through {stages : List (Stage σ)} {s t : MigrationState σ}
    (through : m.passThrough stages s = (t, none)) :
    m.enteredStages stages s = stages.map Prod.fst := by
  induction stages generalizing s with
  | nil => rfl
  | cons stage rest ih =>
    obtain ⟨u, entered, further⟩ := Progressed.andThen_eq_none_iff.1 through
    obtain ⟨v, goes, worked⟩ := Progressed.andThen_eq_none_iff.1 entered
    simp only [enteredStages, goes, worked, ih further, List.map_cons]

theorem stages_come (mapping : Mapping) :
    ∀ stage ∈ m.stages mapping, ∀ {s}, Flowing stage.1 s → Comes stage.1 (stage.2 s) := by
  have unasked : m.undisturbed.Unasked := fun _ => rfl
  simp only [stages, List.forall_mem_cons, List.not_mem_nil, false_imp_iff, implies_true, and_true]
  refine ⟨?_, ?_, ?_, ?_⟩
  · exact (extractAll_lockstep m.config.sources []).comes (runExtraction_steady unasked) rfl
  · exact (runTransformation_lockstep mapping).comes
      (fun running => runTransformation_steady unasked running mapping) rfl
  · exact runValidation_lockstep.comes (runValidation_steady unasked) rfl
  · exact (runLoading_lockstep mapping).comes
      (fun running => runLoading_steady unasked running mapping) rfl

/-! ## The end of a run -/

/-- A run that goes to a final status has the time of its end. -/
theorem goTo_final {s : MigrationState σ} {next : RunStatus} (final : next.isFinal = true)
    (may : s.run.status.canGo s.run.pausedFrom next = true) :
    (s.goTo m next).1.run.status = next ∧ (s.goTo m next).1.run.completedAt.isSome = true ∧
      (s.goTo m next).1.run.errors = s.run.errors := by
  obtain ⟨run, goes, ends⟩ := s.goTo_of_canGo m next may
  rw [ends]
  refine ⟨Run.goTo?_status goes, ?_, (Run.goTo?_sameAccount goes).errors⟩
  rw [Run.goTo?_completedAt goes final]
  rfl

/-- A run that fails in a phase notes one error there. -/
theorem stop_of_flowing {phase : RunStatus} {s : MigrationState σ} {e : MigrationError}
    (wanted : e.isCancel = false) (flowing : Flowing phase s)
    (lasting : phase.next?.isSome = true) : (m.stop s e).run.EndedBy (some e) phase := by
  obtain ⟨unfinished, going⟩ := RunStatus.of_next lasting
  have current : currentPhase s.run = phase := by
    rw [currentPhase, flowing.status, if_neg going]
  let noted : MigrationState σ := ({ s with run := s.run.noteError phase e.message m.now } :
    MigrationState σ).emit (.error phase e.message)
  have may : noted.run.status.canGo noted.run.pausedFrom .failed = true := by
    have same : noted.run.status = phase := flowing.status
    rw [same]
    cases phase <;> first | rfl | cases unfinished
  have stopped : m.stop s e = (noted.goTo m .failed).1 := by
    simp only [stop, wanted, current, noted, Bool.false_eq_true, if_false]
  obtain ⟨status, completedAt, errors⟩ := goTo_final (m := m) rfl may
  have single : noted.run.errors = [⟨phase, e.message, m.now⟩] := by
    have added : noted.run.errors = s.run.errors ++ [⟨phase, e.message, m.now⟩] := rfl
    rw [added, flowing.errors]
    rfl
  rw [stopped]
  refine ⟨status.trans ?_, completedAt, ?_⟩
  · cases e <;> first | rfl | cases wanted
  · rw [errors, single]
    cases e <;> first | rfl | cases wanted

/-- A run that was cancelled before it came to its end notes no error. -/
theorem stop_of_cancelled {s : MigrationState σ} (lasting : s.run.status.isFinal = false)
    (clean : s.run.errors = []) (last : RunStatus) :
    (m.stop s .cancelled).run.EndedBy (some .cancelled) last := by
  have may : s.run.status.canGo s.run.pausedFrom .cancelled = true := by
    cases h : s.run.status <;> simp_all [RunStatus.canGo, RunStatus.isFinal]
  obtain ⟨status, completedAt, errors⟩ := goTo_final (m := m) rfl may
  have stopped : m.stop s .cancelled = (s.goTo m .cancelled).1 := if_pos rfl
  rw [stopped]
  exact ⟨status, completedAt, by rw [errors, clean]; rfl⟩

/-- A run that went through its phases is completed. -/
theorem complete_of_flowing {s : MigrationState σ} (flowing : Flowing .loading s)
    (last : RunStatus) :
    (s.goTo m .completed).2 = none ∧ (s.goTo m .completed).1.run.EndedBy none last := by
  have may : s.run.status.canGo s.run.pausedFrom .completed = true := by
    rw [flowing.status]
    rfl
  obtain ⟨status, completedAt, errors⟩ := goTo_final (m := m) rfl may
  refine ⟨?_, status, completedAt, by rw [errors, flowing.errors]; rfl⟩
  obtain ⟨run, goes, _⟩ :=
    Run.goTo?_next m.now (flowing.status ▸ rfl : s.run.status.next? = some .completed)
  simp only [MigrationState.goTo, goes]

theorem conclude_endedBy {s : MigrationState σ} {outcome : Option MigrationError}
    {last : RunStatus} (h : s.run.EndedBy outcome last) :
    (m.conclude s).run.EndedBy outcome last := by
  obtain ⟨files, path, events, concluded⟩ := m.conclude_frame s
  rw [concluded]
  exact h.withTotals

/-- How a run is left by what stopped its work, if anything did. -/
inductive Leaves (last : RunStatus) : MigrationState σ → Option (Stop MigrationError) → Prop
  | completed {s : MigrationState σ} (ended : s.run.EndedBy none last) : Leaves last s none
  | stopped {s : MigrationState σ} {e : MigrationError} (ended : s.run.EndedBy (some e) last) :
    Leaves last s (some (.error e))
  /-- It is paused, and no request comes that ends the pause. -/
  | waits {s : MigrationState σ} (paused : s.run.status = .paused)
    (endless : s.control.waited = none) : Leaves last s (some (.standstill .waits))
  /-- It is in the phase that it entered last. -/
  | panics {s : MigrationState σ} (flowing : Flowing last s) (lasting : last.next?.isSome = true) :
    Leaves last s (some (.standstill .panics))

theorem Leaves.ended {last : RunStatus} {s : MigrationState σ} {e : MigrationError}
    (h : Leaves last s (some (.error e))) : s.run.EndedBy (some e) last := by
  cases h with
  | stopped ended => exact ended

theorem settle_of_halted {s : MigrationState σ} {stop : Stop MigrationError}
    (halted : Halted s stop) (last : RunStatus) :
    Leaves last (m.settle (s, some stop)) (some stop) := by
  cases halted with
  | cancelled lasting errors _ =>
    exact .stopped (conclude_endedBy (stop_of_cancelled lasting errors last))
  | waits paused _ _ endless => exact .waits paused endless

theorem settle_of_flowing {phase : RunStatus} {s : MigrationState σ} {stop : Stop MigrationError}
    (unasked : stop.isAsked = false) (flowing : Flowing phase s)
    (lasting : phase.next?.isSome = true) :
    Leaves phase (m.settle (s, some stop)) (some stop) := by
  obtain e | _ | _ := stop
  · exact .stopped (conclude_endedBy (stop_of_flowing unasked flowing lasting))
  · cases unasked
  · exact .panics flowing lasting

theorem settle_phases (mapping : Mapping) {s : MigrationState σ} (flowing : Flowing .pending s) :
    Leaves ((m.enteredStages (m.stages mapping) s).getLast?.getD .pending)
      (m.settle (m.phases mapping s)) (m.phases mapping s).2 := by
  have inOrder : (.pending :: (m.stages mapping).map Prod.fst).IsChain (·.next? = some ·) := by
    simp [stages, RunStatus.next?]
  have comes := passThrough_comes (m := m) (stages_come mapping) inOrder flowing
  have all : ∀ {t}, m.passThrough (m.stages mapping) s = (t, none) → _ :=
    enteredStages_of_through
  rw [phases_eq_passThrough]
  revert comes all
  generalize m.passThrough (m.stages mapping) s = p
  intro comes all
  cases comes with
  | @goesOn t flowing =>
    rw [all rfl] at flowing ⊢
    obtain ⟨through, ended⟩ := complete_of_flowing (m := m) flowing .loading
    have completed : t.goTo m .completed = ((t.goTo m .completed).1, none) := Prod.ext rfl through
    simp only [Progressed.andThen]
    rw [completed]
    exact .completed (conclude_endedBy ended)
  | fails unasked flowing lasting => exact settle_of_flowing unasked flowing lasting
  | cut halted => exact settle_of_halted halted _

/-- A run is left as what stopped it says; an error is noted in the phase that it entered last. -/
theorem run_leaves (m : Migration σ) (s : MigrationState σ) :
    Leaves ((m.enteredPhases s).getLast?.getD .pending) (m.run s) (m.execute (m.fresh s)).2 := by
  have begins : Flowing .pending (m.fresh s) := ⟨rfl, rfl, rfl, List.not_mem_nil⟩
  simp only [Migration.run, execute, enteredPhases]
  cases m.config.check with
  | error e => exact settle_of_flowing rfl begins rfl
  | ok _ =>
    cases resolved : m.resolveMapping (m.fresh s) with
    | error e => exact settle_of_flowing (resolveMapping_error resolved) begins rfl
    | ok mapping =>
      have ready : Flowing .pending (adopt mapping (m.fresh s)) :=
        ⟨begins.status, begins.unpaused, begins.errors, begins.unseen⟩
      simp only [preflight]
      cases mapping.entities.filterMap m.preflightProblem? with
      | nil => exact settle_phases mapping ready
      | cons _ _ => exact settle_of_flowing rfl ready rfl

/-- Nothing stopped a run that is completed. -/
theorem execute_of_completed {m : Migration σ} {s : MigrationState σ}
    (completed : (m.run s).run.status = .completed) : (m.execute (m.fresh s)).2 = none := by
  have leaves := run_leaves m s
  generalize (m.execute (m.fresh s)).2 = stop at leaves
  cases leaves with
  | completed _ => rfl
  | @stopped e ended =>
    have status := ended.status
    rw [completed] at status
    cases e <;> cases status
  | waits paused _ => exact absurd (completed.symm.trans paused) (by decide)
  | panics flowing lasting =>
    rw [← flowing.status, completed] at lasting
    cases lasting

/-! ## The steps of a run -/

end Migration

end DataMigration
