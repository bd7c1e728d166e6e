import DataMigration.Proofs.Migration.Moves

/-!
# Runs to which no requests come

When nothing is asked of a run, its checkpoints let it go on and its activities are noted without
any effect. So a phase leaves the status of the run, and the errors noted on it, as they were when
the phase was entered.
-/

namespace DataMigration

variable {σ : Type} {m : Migration σ}

/-- No requests come. -/
def Migration.Unasked (m : Migration σ) : Prop := ∀ activities, m.schedule activities = []

namespace MigrationState

theorem note_unasked (unasked : m.Unasked) (s : MigrationState σ) (a : Activity) :
    s.note m a = { s with activities := a :: s.activities } := by
  simp only [note]
  rw [unasked (a :: s.activities)]
  rfl

/-- A checkpoint goes on at once. -/
theorem checkpoint_unasked (unasked : m.Unasked) {s : MigrationState σ}
    (running : s.control.signal = .running) :
    s.checkpoint m =
      ({ s with control := s.control.look, activities := .checkpoint :: s.activities }, none) := by
  rw [checkpoint, s.note_unasked unasked]
  exact heed_of_running m { s with activities := .checkpoint :: s.activities } running

end MigrationState

/-- The run stands where it stood, and nothing is asked of it. -/
structure Steady (s t : MigrationState σ) : Prop where
  signal : t.control.signal = .running
  status : t.run.status = s.run.status
  pausedFrom : t.run.pausedFrom = s.run.pausedFrom
  errors : t.run.errors = s.run.errors

namespace Steady

theorem kept (unasked : m.Unasked) :
    Kept m (fun s t : MigrationState σ => s.control.signal = .running → Steady s t) where
  refl _ running := ⟨running, rfl, rfl, rfl⟩
  trans h h' running :=
    have first := h running
    have next := h' first.signal
    ⟨next.signal, next.status.trans first.status, next.pausedFrom.trans first.pausedFrom,
      next.errors.trans first.errors⟩
  emit _ _ running := ⟨running, rfl, rfl, rfl⟩
  note s a _ running := by
    rw [s.note_unasked unasked]
    exact ⟨running, rfl, rfl, rfl⟩
  checkpoint s running := by
    rw [s.checkpoint_unasked unasked running]
    exact ⟨running, rfl, rfl, rfl⟩
  files _ _ running := ⟨running, rfl, rfl, rfl⟩
  newStep _ _ _ _ running := ⟨running, rfl, rfl, rfl⟩
  finishStep _ _ _ running := ⟨running, rfl, rfl, rfl⟩

theorem send (unasked : m.Unasked) (s : MigrationState σ) (loader : Loader (Target σ))
    (batch : Batch) (running : s.control.signal = .running) :
    Steady s (m.send loader batch s).1 := by
  simp only [Migration.send, s.note_unasked unasked]
  exact ⟨running, rfl, rfl, rfl⟩

end Steady

namespace Migration

/-! Each phase leaves the run as it was entered. -/

variable {s : MigrationState σ} (unasked : m.Unasked) (running : s.control.signal = .running)
include unasked running

theorem runExtraction_steady : Steady s (m.runExtraction s).1 :=
  (Steady.kept unasked).runExtraction (fun _ _ running => ⟨running, rfl, rfl, rfl⟩) s running

theorem runTransformation_steady (mapping : Mapping) :
    Steady s (m.runTransformation mapping s).1 :=
  (Steady.kept unasked).runTransformation (fun _ _ running => ⟨running, rfl, rfl, rfl⟩)
    (fun _ _ running => ⟨running, rfl, rfl, rfl⟩) mapping s running

theorem runValidation_steady : Steady s (m.runValidation s).1 :=
  (Steady.kept unasked).runValidation (fun _ _ running => ⟨running, rfl, rfl, rfl⟩) s running

theorem runLoading_steady (mapping : Mapping) : Steady s (m.runLoading mapping s).1 :=
  (Steady.kept unasked).runLoading (fun s loader batch => Steady.send unasked s loader batch)
    (fun _ _ running => ⟨running, rfl, rfl, rfl⟩) (fun _ _ running => ⟨running, rfl, rfl, rfl⟩)
    mapping s running

end Migration

end DataMigration
