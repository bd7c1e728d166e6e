import DataMigration.Proofs.Load.Sequential
import DataMigration.Proofs.Migration.Moves

/-!
# Runs that come back

A run comes to a standstill when it waits in a pause that no request ends, or when its limit on
requests asks for a time that no duration holds. Where every pause comes together with a request
that ends it, a wait is never endless: as long as the run is paused, such a request is left.
-/

namespace DataMigration

variable {σ : Type}

/-! ## Endless intervals -/

/-- A duration holds the time between two requests that the limit on them asks for. -/
def Config.keepsPace (c : Config) : Bool :=
  c.rateLimit.all fun rate => (requestInterval? rate).isSome

theorem Loader.limited_standstill {l : Loader σ} {rate : Option Binary64} {stop : Stop LoaderError}
    (h : l.limited rate = .error stop) :
    stop = .standstill .panics ∧ rate.all (fun rate => (requestInterval? rate).isSome) = false := by
  unfold limited at h
  split at h
  · cases h
  · split at h
    · cases h
    · split at h <;> cases h
      rename_i none
      exact ⟨rfl, by rw [Option.all_some, none]; rfl⟩

/-- Only the limit on requests can keep the loader from being made at all. -/
theorem Connectors.loader_standstill {c : Connectors σ} {config : Config} {why : Standstill}
    (h : c.loader config = .error (.standstill why)) :
    why = .panics ∧ config.keepsPace = false := by
  unfold Connectors.loader at h
  split at h
  · cases h
  · obtain ⟨⟨⟩, endless⟩ := Loader.limited_standstill h
    exact ⟨rfl, endless⟩

section

variable {α β : Type}

/-- The work does not panic. -/
def Calm (p : β × Option (Stop MigrationError)) : Prop := Stop.standstill? p.2 ≠ some .panics

theorem Calm.standstill? {p : β × Option (Stop MigrationError)} (h : Calm p)
    (unpaused : Stop.standstill? p.2 ≠ some .waits) : Stop.standstill? p.2 = none := by
  cases stands : Stop.standstill? p.2 with
  | none => rfl
  | some why =>
    cases why with
    | waits => exact absurd stands unpaused
    | panics => exact absurd stands h

theorem Calm.through (b : β) : Calm (b, none) := (Option.some_ne_none _).symm

theorem Calm.error (b : β) (e : MigrationError) : Calm (b, some (.error e)) :=
  (Option.some_ne_none _).symm

theorem Calm.waits (b : β) : Calm (b, some (.standstill .waits)) := fun panics =>
  Standstill.noConfusion (Option.some.inj panics)

theorem Calm.andThen {p : Progressed σ} (h : Calm p) {f : MigrationState σ → Progressed σ}
    (next : ∀ s, Calm (f s)) : Calm (p.andThen f) := by
  obtain ⟨s, _ | stop⟩ := p
  · exact next s
  · exact h

end

namespace MigrationState

variable (m : Migration σ) (s : MigrationState σ)

end MigrationState

namespace Migration

variable (m : Migration σ)

end Migration

/-! ## Endless pauses -/

/-- The request ends a pause. -/
def Request.endsPause : Request → Bool
  | .pause => false
  | .resume => true
  | .cancel => true

/-- No pause comes without a request that ends it. -/
def Disturbance.endsPause : Disturbance → Bool
  | .request r => r.endsPause
  | .pauseThen r => r.endsPause

/-- A request that ends a pause begins none. -/
theorem Signal.after_ne_paused {r : Request} (ends : r.endsPause = true) (signal : Signal) :
    signal.after r ≠ .paused := by
  cases r with
  | pause => cases ends
  | resume => cases signal <;> decide
  | cancel => cases signal <;> decide

namespace Control

theorem endOfWait_eq_some {signal signal' : Signal} {onPause onPause' : List Request}
    (h : endOfWait signal onPause = some (signal', onPause')) :
    signal' ≠ .paused ∧ onPause' <:+ onPause := by
  induction onPause generalizing signal with
  | nil => cases signal <;> cases h <;> exact ⟨by decide, List.suffix_refl _⟩
  | cons r rest ih =>
    cases signal with
    | running => cases h; exact ⟨by decide, List.suffix_refl _⟩
    | cancelled => cases h; exact ⟨by decide, List.suffix_refl _⟩
    | paused => exact (ih h).imp_right fun part => part.trans (List.suffix_cons _ _)

/-- All requests that are still to come in a pause end it, and while the run is paused there is one. -/
structure Answered (c : Control) : Prop where
  ending : ∀ r ∈ c.onPause, r.endsPause = true
  left : c.signal = .paused → c.onPause ≠ []

namespace Answered

variable {c c' : Control}

theorem look (h : c.Answered) : c.look.Answered := ⟨h.ending, h.left⟩

/-- The wait takes no more than the request that ends it. -/
theorem waited (h : c.Answered) (waits : c.waited = some c') : c'.Answered := by
  simp only [Control.waited, Option.map_eq_some_iff, Prod.exists] at waits
  obtain ⟨signal, onPause, ended, rfl⟩ := waits
  obtain ⟨unpaused, part⟩ := endOfWait_eq_some ended
  exact ⟨fun r member => h.ending r (part.subset member), fun paused => absurd paused unpaused⟩

theorem disturbed (h : c.Answered) {d : Disturbance} (ends : d.endsPause = true) :
    (c.disturbed d).Answered := by
  cases d with
  | request r => exact ⟨h.ending, fun paused => absurd paused (Signal.after_ne_paused ends c.signal)⟩
  | pauseThen r =>
    refine ⟨fun q member => ?_, fun _ => List.append_ne_nil_of_right_ne_nil _ (List.cons_ne_nil _ _)⟩
    obtain before | new := List.mem_append.1 member
    · exact h.ending q before
    · exact List.mem_singleton.1 new ▸ ends

end Answered

end Control

namespace MigrationState

end MigrationState

namespace Migration

variable {m : Migration σ}

end Migration

end DataMigration
