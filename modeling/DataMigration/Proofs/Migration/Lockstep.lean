import DataMigration.Proofs.Migration.Checkpoint
import DataMigration.Proofs.Migration.Moves

/-!
# A run beside the same run without requests

A run to which requests come goes in lockstep with the run to which none come: as long as no
checkpoint sees that it is cancelled, the two states differ in their control only. When one does, or
when a pause never ends, the run stops where the other one goes on, having done a part of what the
other one does.
-/

namespace DataMigration

/-- The migration to which no requests come. -/
def Migration.undisturbed {σ : Type} (m : Migration σ) : Migration σ :=
  { m with schedule := fun _ => [] }

/-- The state with another control. -/
def MigrationState.under {σ : Type} (s : MigrationState σ) (c : Control) : MigrationState σ :=
  { s with control := c }

/-- What is worked on in a phase holds the state of the run, whose control can be exchanged. -/
class Carrier (σ : outParam Type) (β : Type) where
  state : β → MigrationState σ
  under : β → Control → β

namespace Carrier

variable {σ : Type}

instance : Carrier σ (MigrationState σ) where
  state s := s
  under := MigrationState.under

instance {α : Type} : Carrier σ (MigrationState σ × α) where
  state b := b.1
  under b c := (b.1.under c, b.2)

instance : Carrier σ (Migration.Work σ) where
  state := Migration.Work.state
  under w c := { w with state := w.state.under c }

instance : Carrier σ (Migration.Sending σ) where
  state := Migration.Sending.state
  under w c := { w with state := w.state.under c }

end Carrier

open Carrier

section Quiet

variable {σ : Type}

/-- The parts of a state by which a run goes on are as they were. -/
structure Still (s t : MigrationState σ) : Prop where
  status : t.run.status = s.run.status
  pausedFrom : t.run.pausedFrom = s.run.pausedFrom
  errors : t.run.errors = s.run.errors
  seen : t.control.seen = s.control.seen

namespace Still

theorem refl (s : MigrationState σ) : Still s s := ⟨rfl, rfl, rfl, rfl⟩

theorem trans {s t u : MigrationState σ} (h : Still s t) (h' : Still t u) : Still s u :=
  ⟨h'.status.trans h.status, h'.pausedFrom.trans h.pausedFrom, h'.errors.trans h.errors,
    h'.seen.trans h.seen⟩

/-- Requests that come between two checkpoints are not seen. -/
theorem note (m : Migration σ) (s : MigrationState σ) (a : Activity) : Still s (s.note m a) := by
  refine ⟨rfl, rfl, rfl, ?_⟩
  have unseen : ∀ (ds : List Disturbance) (c : Control),
      (ds.foldl Control.disturbed c).seen = c.seen := by
    intro ds
    induction ds with
    | nil => exact fun _ => rfl
    | cons d ds ih =>
      intro c
      rw [List.foldl_cons, ih]
      cases d <;> rfl
  exact unseen _ _

end Still

variable {β γ δ : Type} [Carrier σ β] [Carrier σ γ] [Carrier σ δ]

/-- The same work with requests and without them, when it does not look at the control. -/
structure Quiet (f g : β → γ) : Prop where
  same : ∀ b c, g (under b c) = under (f b) c
  still : ∀ b, Still (state b) (state (f b))

namespace Quiet

theorem comp {f g : β → γ} {f' g' : γ → δ} (h : Quiet f g) (h' : Quiet f' g') :
    Quiet (fun b => f' (f b)) (fun b => g' (g b)) where
  same b c := by rw [h.same, h'.same]
  still b := (h.still b).trans (h'.still (f b))

theorem foldl {α : Type} {f g : β → α → β} (h : ∀ x, Quiet (fun b => f b x) (fun b => g b x))
    (xs : List α) :
    Quiet (fun b => xs.foldl f b) (fun b => xs.foldl g b) := by
  induction xs with
  | nil => exact ⟨fun _ _ => rfl, fun b => .refl (state b)⟩
  | cons x xs ih => exact (h x).comp ih

theorem fst {α : Type} {f g : β → MigrationState σ × α} (h : Quiet f g) :
    Quiet (fun b => (f b).1) (fun b => (g b).1) :=
  ⟨fun b c => congrArg Prod.fst (h.same b c), h.still⟩

theorem note (m : Migration σ) (a : Activity) :
    Quiet (fun s : MigrationState σ => s.note m a) (fun s => s.note m.undisturbed a) where
  same _ _ := rfl
  still s := Still.note m s a

theorem notes (m : Migration σ) (activities : List Activity) :
    Quiet (fun s : MigrationState σ => activities.foldl (MigrationState.note m) s)
      (fun s => activities.foldl (MigrationState.note m.undisturbed) s) :=
  foldl (note m) activities

end Quiet

end Quiet

section Follows

variable {σ β γ : Type} [Carrier σ β] [Carrier σ γ]

/-- The run is in a phase, nothing went wrong, and no checkpoint saw that it is cancelled. -/
structure Flowing (phase : RunStatus) (s : MigrationState σ) : Prop where
  status : s.run.status = phase
  unpaused : s.run.pausedFrom = none
  errors : s.run.errors = []
  unseen : .cancelled ∉ s.control.seen

/-- A request brought the stop about. -/
def Stop.isAsked : Stop MigrationError → Bool
  | .error e => e.isCancel
  | .standstill why => why == .waits

/-- What requests stop the run with before it comes to its end. -/
inductive Halted (s : MigrationState σ) : Stop MigrationError → Prop
  /-- A checkpoint saw that the run is cancelled. -/
  | cancelled (lasting : s.run.status.isFinal = false) (errors : s.run.errors = [])
    (seen : .cancelled ∈ s.control.seen) : Halted s (.error .cancelled)
  /-- The run is paused, and no request comes that ends the pause. -/
  | waits (paused : s.run.status = .paused) (errors : s.run.errors = [])
    (unseen : .cancelled ∉ s.control.seen) (endless : s.control.waited = none) :
    Halted s (.standstill .waits)

theorem Flowing.still {phase : RunStatus} {s t : MigrationState σ} (h : Flowing phase s)
    (still : Still s t) : Flowing phase t :=
  ⟨still.status.trans h.status, still.pausedFrom.trans h.unpaused, still.errors.trans h.errors,
    still.seen ▸ h.unseen⟩

theorem Halted.still {s t : MigrationState σ} {stop : Stop MigrationError} (h : Halted s stop)
    (still : Still s t) (control : t.control = s.control) : Halted t stop := by
  cases h with
  | cancelled lasting errors seen =>
    exact .cancelled (still.status ▸ lasting) (still.errors.trans errors) (control ▸ seen)
  | waits paused errors unseen endless =>
    exact .waits (still.status.trans paused) (still.errors.trans errors) (control ▸ unseen)
      (control ▸ endless)

/-- What comes of work with requests, on the left, and of the same work without them. -/
inductive Follows (phase : RunStatus) :
    β × Option (Stop MigrationError) → β × Option (Stop MigrationError) → Prop
  /-- Both go on, with states that differ in their control. -/
  | goesOn {b : β} {c : Control} (flowing : Flowing phase (state b))
      (running : c.signal = .running) :
    Follows phase (b, none) (under b c, none)
  /-- Both stop for the same reason, and it was none that was asked for. -/
  | fails {b : β} {c : Control} {stop : Stop MigrationError} (unasked : stop.isAsked = false)
    (unseen : .cancelled ∉ (state b).control.seen) :
    Follows phase (b, some stop) (under b c, some stop)
  /-- One stops because of requests, with a part of what the other one did. -/
  | cut {b : β} {stop : Stop MigrationError} {q : β × Option (Stop MigrationError)}
    (halted : Halted (state b) stop) (part : (state b).activities <:+ (state q.1).activities) :
    Follows phase (b, some stop) q

/-- Two pieces of work go in lockstep through a phase. -/
def Lockstep (phase : RunStatus) (f g : β → γ × Option (Stop MigrationError)) : Prop :=
  ∀ b c, Flowing phase (state b) → c.signal = .running → Follows phase (f b) (g (under b c))

theorem Quiet.lockstep {δ : Type} [Carrier σ δ] {phase : RunStatus} {f g : β → γ}
    (h : Quiet f g) {f' g' : γ → δ × Option (Stop MigrationError)} (h' : Lockstep phase f' g') :
    Lockstep phase (fun b => f' (f b)) (fun b => g' (g b)) := by
  intro b c flowing running
  change Follows phase (f' (f b)) (g' (g (under b c)))
  rw [h.same]
  exact h' (f b) c (flowing.still (h.still b)) running

theorem Quiet.goesOn {phase : RunStatus} {f g : β → γ} (h : Quiet f g) :
    Lockstep phase (fun b => (f b, none)) (fun b => (g b, none)) := by
  intro b c flowing running
  simp only [h.same]
  exact .goesOn (flowing.still (h.still b)) running

/-- Bookkeeping after work, whether or not it was stopped: it neither looks at the control nor
touches it, and does nothing that may be watched. -/
structure Bookkeeping (k : Option (Stop MigrationError) → β → γ) : Prop where
  quiet : ∀ stop, Quiet (k stop) (k stop)
  control : ∀ stop b, (state (k stop b)).control = (state b).control
  activities : ∀ stop b, (state (k stop b)).activities = (state b).activities

theorem Follows.map {phase : RunStatus} {p q : β × Option (Stop MigrationError)}
    (h : Follows phase p q) {k : Option (Stop MigrationError) → β → γ} (books : Bookkeeping k) :
    Follows phase (k p.2 p.1, p.2) (k q.2 q.1, q.2) := by
  cases h with
  | goesOn flowing running =>
    simp only
    rw [(books.quiet none).same]
    exact .goesOn (flowing.still ((books.quiet none).still _)) running
  | @fails b c stop unasked unseen =>
    simp only
    rw [(books.quiet (some stop)).same]
    refine .fails unasked ?_
    rw [books.control]
    exact unseen
  | @cut b stop q halted part =>
    refine .cut (halted.still ((books.quiet _).still b) (books.control _ b)) ?_
    rw [books.activities, books.activities]
    exact part

/-- Work that goes on only if it was not stopped. The work without requests never undoes what it
has done. -/
theorem Follows.andThen {phase phase' : RunStatus} {p q : Progressed σ} (h : Follows phase p q)
    {f g : MigrationState σ → Progressed σ}
    (next : ∀ s c, Flowing phase s → c.signal = .running → Follows phase' (f s) (g (s.under c)))
    (grows : ∀ s, s.activities <:+ (g s).1.activities) :
    Follows phase' (p.andThen f) (q.andThen g) := by
  cases h with
  | goesOn flowing running => exact next _ _ flowing running
  | fails unasked unseen => exact .fails unasked unseen
  | @cut b stop q halted part =>
    refine .cut halted (part.trans ?_)
    obtain ⟨t, _ | other⟩ := q
    · exact grows t
    · exact List.suffix_refl _

theorem Lockstep.andThen {phase : RunStatus} {f g : β → Progressed σ}
    {f' g' : MigrationState σ → Progressed σ} (first : Lockstep phase f g)
    (next : Lockstep phase f' g') (grows : ∀ s, s.activities <:+ (g' s).1.activities) :
    Lockstep phase (fun b => (f b).andThen f') (fun b => (g b).andThen g') :=
  fun b c flowing running => (first b c flowing running).andThen next grows

/-- Work on batches, a batch at a time. -/
theorem Lockstep.overBatches {α : Type} {phase : RunStatus}
    {work work' : β → List α → β × Option (Stop MigrationError)}
    (each : ∀ batch, Lockstep phase (fun b => work b batch) (fun b => work' b batch))
    (grows : ∀ b batch, (state b).activities <:+ (state (work' b batch).1).activities)
    (xs : List (List α)) :
    Lockstep phase (fun b => overBatches work xs b) (fun b => overBatches work' xs b) := by
  induction xs with
  | nil => exact fun b c flowing running => .goesOn flowing running
  | cons batch rest ih =>
    intro b c flowing running
    have first := each batch b c flowing running
    have further := overBatches_keeps
      (R := fun b d => (state b).activities <:+ (state d).activities)
      (fun b => List.suffix_refl _) (fun h h' => h.trans h') rest (fun b x _ => grows b x)
    revert first
    simp only [DataMigration.overBatches]
    generalize work b batch = p, work' (under b c) batch = q
    intro first
    cases first with
    | goesOn flowing running => exact ih _ _ flowing running
    | fails unasked unseen => exact .fails unasked unseen
    | @cut b stop q halted part =>
      refine .cut halted (part.trans ?_)
      obtain ⟨d, _ | other⟩ := q
      · exact further d
      · exact List.suffix_refl _

end Follows

section Checkpoints

variable {σ : Type} {m : Migration σ}

/-- A checkpoint goes on, goes on after a pause, waits for ever, or sees that the run is
cancelled. -/
theorem Lockstep.checkpoint {phase : RunStatus} (active : phase.isActive = true) :
    Lockstep phase (MigrationState.checkpoint m) (MigrationState.checkpoint m.undisturbed) := by
  refine (Quiet.note m .checkpoint).lockstep ?_
  intro s c flowing running
  replace flowing : Flowing phase s := flowing
  change Follows phase (s.heed m) ((s.under c).heed m.undisturbed)
  rw [(s.under c).heed_of_running m.undisturbed running]
  have lasting : s.run.status.isFinal = false := by
    rw [flowing.status]
    cases phase <;> first | rfl | cases active
  have calm : ∀ d : Control, .cancelled ∉ d.seen → Follows phase
      (s.under d, none) (s.under c.look, none) :=
    fun d unseen => .goesOn (b := s.under d) (c := c.look)
      ⟨flowing.status, flowing.unpaused, flowing.errors, unseen⟩ running
  cases asked : s.control.signal with
  | running =>
    rw [s.heed_of_running m asked]
    exact calm _ (by simp [asked, flowing.unseen])
  | cancelled =>
    rw [s.heed_of_cancelled m asked]
    exact .cut (.cancelled lasting flowing.errors (by simp [state, asked])) (List.suffix_refl _)
  | paused =>
    obtain ⟨run, status, account, ⟨d, waited, ended, goes⟩ | ⟨d, waited, ended, stops⟩ |
        ⟨endless, stays⟩⟩ :=
      s.heed_of_paused m asked (flowing.status ▸ active) flowing.unpaused
    · have seen := Control.waited_seen waited
      rw [goes]
      exact calm _ (by simp [seen, asked, flowing.unseen, Ne.symm ended])
    · rw [stops]
      exact .cut (.cancelled (status ▸ rfl) (account.errors.trans flowing.errors)
        (by simp [state, ended])) (List.suffix_refl _)
    · rw [stays]
      exact .cut (.waits status (account.errors.trans flowing.errors)
        (by simp [state, asked, flowing.unseen]) endless) (List.suffix_refl _)

end Checkpoints

end DataMigration
