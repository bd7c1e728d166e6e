import DataMigration.Migration.Rollback
import DataMigration.Proofs.Load.Memory
import DataMigration.Proofs.Load.Sequential
import DataMigration.Proofs.Migration.Loadable

/-!
# What a rollback takes away

A rollback deletes exactly what the run noted as created. In a target that is a memory this is every
record that the run put there; so nothing stays that was not there before the run. But a record that
took the place of another one is noted as created too, and the rollback deletes it although there
was one before.
-/

namespace DataMigration

section Delivering

variable (service : String)

/-- The id is among those noted as created for the entity. -/
def IsCreated (created : Dict (List String)) (entity id : String) : Prop :=
  id ∈ (Dict.get? created entity).getD []

theorem isCreated_upsert {created : Dict (List String)} {entity e id : String}
    {ids : List String} :
    IsCreated (Dict.upsert created entity [] (· ++ ids)) e id ↔
      IsCreated created e id ∨ (e = entity ∧ id ∈ ids) := by
  unfold IsCreated Dict.upsert
  rw [Dict.get?_insert]
  split
  · rename_i same
    simp [same]
  · rename_i other
    simp [other]

/-- One of the batches has a record of the entity with the id. -/
def Batch.Holds (bs : List Batch) (entity id : String) : Prop :=
  ∃ b ∈ bs, ∃ r ∈ b.records, r.entity = entity ∧ r.id = id

/-- The records of a batch belong to its entity, and it is sent with the flag. -/
def Batch.Proper (upsert : Bool) (b : Batch) : Prop :=
  b.upsert = upsert ∧ ∀ r ∈ b.records, r.entity = b.entity

theorem deliver_target {upsert : Bool} {b : Batch} (proper : b.Proper upsert)
    (acc : Target Memory × Dict (List String)) (e id : String) :
    (((Memory.target service).deliver acc b).1.outside.Present e id ↔
      acc.1.outside.Present e id ∨ Batch.Holds [b] e id) ∧
    (IsCreated ((Memory.target service).deliver acc b).2 e id ↔
      IsCreated acc.2 e id ∨
        (Batch.Holds [b] e id ∧ (upsert = true ∨ ¬ acc.1.outside.Present e id))) := by
  obtain ⟨rfl, own⟩ := proper
  obtain ⟨present, created⟩ := loadEach_target service b.upsert b.records
    ({ entity := b.entity }, acc.1)
  have holds : Batch.Holds [b] e id ↔ ∃ r ∈ b.records, r.entity = e ∧ r.id = id := by
    simp [Batch.Holds]
  rw [holds]
  refine ⟨present e id, isCreated_upsert.trans (or_congr_right ?_)⟩
  have ids := (created id).trans (or_iff_right List.not_mem_nil)
  refine ⟨?_, ?_⟩
  · rintro ⟨rfl, new⟩
    obtain ⟨r, member, rfl, accepts⟩ := ids.1 new
    exact ⟨⟨r, member, own r member, rfl⟩, own r member ▸ accepts⟩
  · rintro ⟨⟨r, member, rfl, rfl⟩, accepts⟩
    exact ⟨own r member, ids.2 ⟨r, member, rfl, accepts⟩⟩

/-- Batches that are delivered one after the other. -/
theorem deliverAll_target {upsert : Bool} {bs : List Batch}
    (proper : ∀ b ∈ bs, b.Proper upsert) (acc : Target Memory × Dict (List String))
    (e id : String) :
    ((bs.foldl (Memory.target service).deliver acc).1.outside.Present e id ↔
      acc.1.outside.Present e id ∨ Batch.Holds bs e id) ∧
    (IsCreated (bs.foldl (Memory.target service).deliver acc).2 e id ↔
      IsCreated acc.2 e id ∨
        (Batch.Holds bs e id ∧ (upsert = true ∨ ¬ acc.1.outside.Present e id))) := by
  induction bs generalizing acc with
  | nil => simp [Batch.Holds]
  | cons b bs ih =>
    obtain ⟨present, created⟩ := deliver_target service (proper b List.mem_cons_self) acc e id
    obtain ⟨present', created'⟩ := ih (fun b h => proper b (List.mem_cons_of_mem _ h))
      ((Memory.target service).deliver acc b)
    have holds : Batch.Holds (b :: bs) e id ↔ Batch.Holds [b] e id ∨ Batch.Holds bs e id := by
      simp [Batch.Holds]
    rw [List.foldl_cons, present', created', present, created, holds]
    -- a record that an earlier batch has put there was put there as new or as a replacement
    exact ⟨or_assoc, by grind⟩

end Delivering

section Sweeping

variable (service : String)

theorem present_deleteOne {entity id : String} {acc : Nat × Target Memory} {e i : String} :
    (Migration.deleteOne (Memory.target service) entity acc id).2.outside.Present e i ↔
      acc.2.outside.Present e i ∧ ¬ (e = entity ∧ i = id) := by
  have deleted : (Migration.deleteOne (Memory.target service) entity acc id).2.outside =
      (Memory.delete entity id acc.2.outside).2 := by
    simp only [Migration.deleteOne, Memory.target, Loader.outside, Memory.loader]
    split <;> rename_i h <;> exact (congrArg (fun p => p.2.outside) h).symm
  rw [deleted]
  exact Memory.present_delete

theorem present_deleteAll (entity : String) (ids : List String) (acc : Nat × Target Memory)
    (e i : String) :
    (ids.foldl (Migration.deleteOne (Memory.target service) entity) acc).2.outside.Present e i ↔
      acc.2.outside.Present e i ∧ ¬ (e = entity ∧ i ∈ ids) := by
  induction ids generalizing acc with
  | nil => simp
  | cons id ids ih =>
    rw [List.foldl_cons, ih, present_deleteOne, List.mem_cons]
    grind

theorem present_sweepEntity (created : Dict (List String)) (acc : Dict Nat × Target Memory)
    (entity e i : String) :
    (Migration.sweepEntity (Memory.target service) created acc entity).2.outside.Present e i ↔
      acc.2.outside.Present e i ∧ ¬ (e = entity ∧ IsCreated created entity i) :=
  present_deleteAll service entity _ (0, acc.2) e i

/-- Sweeping entities takes away what was created for them. -/
theorem present_sweep (created : Dict (List String)) (entities : List String)
    (acc : Dict Nat × Target Memory) (e i : String) :
    (entities.foldl (Migration.sweepEntity (Memory.target service) created)
      acc).2.outside.Present e i ↔
      acc.2.outside.Present e i ∧ ¬ (e ∈ entities ∧ IsCreated created e i) := by
  induction entities generalizing acc with
  | nil => simp
  | cons entity entities ih =>
    rw [List.foldl_cons, ih, present_sweepEntity, List.mem_cons]
    grind

end Sweeping

namespace Migration

/-- Every entity with created ids is swept. -/
theorem mem_sweepOrder {σ : Type} {s : MigrationState σ} {e id : String}
    (h : IsCreated s.run.created e id) : e ∈ sweepOrder s := by
  have key : e ∈ s.run.created.keys := by
    rw [Dict.mem_keys_iff, Dict.contains_eq_isSome_get?]
    unfold IsCreated at h
    cases found : Dict.get? s.run.created e with
    | none => simp [found] at h
    | some ids => rfl
  simp only [sweepOrder]
  by_cases loaded : e ∈ s.loadedEntities
  · exact List.mem_append_left _ (List.mem_reverse.2 loaded)
  · refine List.mem_append_right _ (List.mem_filter.2 ⟨key, ?_⟩)
    simp [loaded]

/-- A completed run with a loader is rolled back: the target is swept, and besides that only the
account of the run and its report change. -/
theorem rollback_of_completed {σ : Type} (m : Migration σ) {s : MigrationState σ}
    {loader : Loader (Target σ)} (completed : s.run.status = .completed)
    (found : s.loader = some loader) :
    let swept := (sweepOrder s).foldl (sweepEntity loader s.run.created) ([], s.target)
    ∃ run files reportPath,
      m.rollback s = ({ s with target := swept.2, run, files, reportPath }, .ok swept.1) ∧
      run.status = .rolledBack ∧ run.steps = s.run.steps ∧ run.created = s.run.created ∧
      run.pausedFrom ≠ some .rollingBack := by
  intro swept
  obtain ⟨run, moved, _⟩ := s.goTo_of_canGo m .rollingBack (by rw [completed]; rfl)
  let begun := { s with run }
  have status : run.status = .rollingBack := Run.goTo?_status moved
  have account := Run.goTo?_sameAccount moved
  have sweeps : (sweepOrder begun).foldl (sweepEntity loader run.created) ([], s.target) =
      swept := by
    simp only [swept, sweepOrder, begun, account.created]
  obtain ⟨run', moved', _⟩ := MigrationState.goTo_of_canGo m { begun with target := swept.2 }
    .rolledBack (by simp only [begun, status]; rfl)
  have account' := Run.goTo?_sameAccount moved'
  let closed := { run' with
    metadata := Dict.insert run'.metadata "rollback" (Value.ofDict Value.nat swept.1) }
  have rolled : m.rollback s =
      (m.saveReport { begun with target := swept.2, run := closed }, .ok swept.1) := by
    simp only [begun] at moved' sweeps
    simp only [rollback, found, moved]
    rw [← found, sweeps, moved']
  obtain ⟨files, path, saved⟩ := m.saveReport_frame { begun with target := swept.2, run := closed }
  have rolledBack : closed.status = .rolledBack := by rw [← Run.goTo?_status moved']
  have forward : run'.pausedFrom ≠ some .rollingBack := Run.goTo?_pausedFrom moved'
  refine ⟨closed, files, path, by rw [rolled, saved], rolledBack, ?_, ?_, forward⟩
  · exact account'.steps.trans account.steps
  · exact account'.created.trans account.created

/-- Without a loader, or unless the run is completed, a rollback is refused and changes nothing. -/
theorem rollback_refused {σ : Type} (m : Migration σ) {s : MigrationState σ}
    (forward : s.run.pausedFrom ≠ some .rollingBack)
    (h : s.loader = none ∨ s.run.status ≠ .completed) : ∃ e, m.rollback s = (s, .error e) := by
  unfold rollback
  cases found : s.loader with
  | none => exact ⟨_, rfl⟩
  | some loader =>
    have uncompleted : s.run.status ≠ .completed :=
      h.resolve_left (by rw [found]; exact Option.some_ne_none loader)
    have barred : s.run.status.canGo s.run.pausedFrom .rollingBack = false := by
      cases status : s.run.status <;> first | rfl | contradiction | exact beq_false_of_ne forward
    simp only [Run.goTo?_eq_none_iff.2 barred]
    exact ⟨_, rfl⟩

/-- A completed run can be rolled back, which deletes what is noted as created. -/
theorem rollback_target (m : Migration Memory) {s : MigrationState Memory} {service : String}
    (completed : s.run.status = .completed) (loader : s.loader = some (Memory.target service)) :
    ∃ deleted, (m.rollback s).2 = .ok deleted ∧
      ∀ e id, (m.rollback s).1.target.outside.Present e id ↔
        s.target.outside.Present e id ∧ ¬ IsCreated s.run.created e id := by
  obtain ⟨run, files, path, rolled, _⟩ := m.rollback_of_completed completed loader
  rw [rolled]
  refine ⟨_, rfl, fun e id => ?_⟩
  have present := present_sweep service s.run.created (sweepOrder s) ([], s.target) e id
  refine present.trans (and_congr_right fun _ => not_congr ?_)
  exact and_iff_right_of_imp mem_sweepOrder

theorem loader_eq_target {m : Migration Memory} {service : String} {loader : Loader (Target Memory)}
    (real : m.config.dryRun = false)
    (memory : m.connectors.targetLoader m.config = .ok (Memory.loader service))
    (connected : m.connectors.loader m.config = .ok loader) : loader = Memory.target service := by
  have built : m.connectors.unlimited m.config = .ok (Memory.loader service).outside := by
    rw [Connectors.unlimited, real, memory]
    rfl
  have limited : (Memory.loader service).outside.limited m.config.rateLimit = .ok loader := by
    rw [← connected, Connectors.loader, built]
  obtain rfl | rfl := Loader.limited_eq_ok limited <;> rfl

/-- After a completed run into a memory and its rollback, a record is there if and only if it was
there before the run and no record was sent in its place. -/
theorem present_rollback_run (m : Migration Memory) (s : MigrationState Memory) {service : String}
    (real : m.config.dryRun = false)
    (memory : m.connectors.targetLoader m.config = .ok (Memory.loader service))
    (completed : (m.run s).run.status = .completed) :
    ∃ sent deleted, (m.run s).sent = s.sent ++ sent ∧ (m.rollback (m.run s)).2 = .ok deleted ∧
      ∀ e id, (m.rollback (m.run s)).1.target.outside.Present e id ↔
        s.target.outside.Present e id ∧ ¬ (m.config.upsert = true ∧ Batch.Holds sent e id) := by
  obtain ⟨_, stopped⟩ | ⟨mapping, ready, loader, done, rest, delivery⟩ :=
    m.run_untouched_or_delivers s
  · exact absurd completed stopped
  · cases loader_eq_target real memory delivery.connected
    have taken : (m.run s).loader = some (Memory.target service) := delivery.sends.loader
    obtain ⟨deleted, rolled, swept⟩ := m.rollback_target completed taken
    refine ⟨done, deleted, delivery.sends.sent, rolled, fun e id => ?_⟩
    have made := prepare_all (m := m) (s := adopt mapping (m.fresh s)) (P := fun _ => True) rfl
      (fun _ _ => trivial) delivery.prepared
    have proper : ∀ b ∈ done, b.Proper m.config.upsert :=
      delivery.records_all (P := fun entity r => r.entity = entity) (fun _ _ _ own _ => own)
        fun set member r inside => (made set member r inside).2.2.1
    obtain ⟨present, created⟩ := deliverAll_target service proper
      ((withLoader (Memory.target service) (m.fresh s)).target, []) e id
    have delivered := delivery.sends.delivered
    have target := congrArg Prod.fst delivered
    have noted := congrArg Prod.snd delivered
    simp only at target noted
    have absent : ¬ IsCreated [] e id := List.not_mem_nil
    have before : (withLoader (Memory.target service) (m.fresh s)).target.outside =
        s.target.outside := rfl
    have run : (withLoader (Memory.target service) (m.fresh s)).run.created = [] := rfl
    rw [before] at present created
    rw [run] at target noted
    rw [swept, target, noted, present, created]
    -- what was sent and stays was there before, and nothing could be sent in its place
    grind

/-- A completed run into a memory can be rolled back, and nothing is there afterwards that was not
there before. What was there before is there again if and only if the run was to replace nothing,
or sent no record in the place of another one. -/
theorem rollback_restores_iff (m : Migration Memory) (s : MigrationState Memory) {service : String}
    (real : m.config.dryRun = false)
    (memory : m.connectors.targetLoader m.config = .ok (Memory.loader service))
    (completed : (m.run s).run.status = .completed) :
    ∃ sent deleted, (m.run s).sent = s.sent ++ sent ∧ (m.rollback (m.run s)).2 = .ok deleted ∧
      (∀ e id, ¬ s.target.outside.Present e id →
        ¬ (m.rollback (m.run s)).1.target.outside.Present e id) ∧
      ((∀ e id, s.target.outside.Present e id →
          (m.rollback (m.run s)).1.target.outside.Present e id) ↔
        m.config.upsert = false ∨
          ∀ e id, s.target.outside.Present e id → ¬ Batch.Holds sent e id) := by
  obtain ⟨sent, deleted, sends, rolled, present⟩ :=
    m.present_rollback_run s real memory completed
  refine ⟨sent, deleted, sends, rolled, fun e id new there => new ((present e id).1 there).1, ?_⟩
  constructor
  · intro kept
    cases replaces : m.config.upsert with
    | false => exact .inl rfl
    | true =>
      refine .inr fun e id there held => ?_
      exact ((present e id).1 (kept e id there)).2 ⟨replaces, held⟩
  · rintro (keeps | apart) e id there
    · exact (present e id).2 ⟨there, fun replaced => by simp [keeps] at replaced⟩
    · exact (present e id).2 ⟨there, fun replaced => apart e id there replaced.2⟩

/-- The contacts are about to be loaded into a memory that has one contact already. -/
def contactStateWith (id : String) : MigrationState Memory :=
  { contactState with target := { outside := [("contact", [(id, [])])] } }

/-- A contact that is not replaced is still there after the rollback. -/
theorem contactMigration_rollback_restores :
    let s := contactStateWith "other_7"
    (contactMigration.run s).run.status = .completed ∧
      s.target.outside.Present "contact" "other_7" ∧
    ∃ sent deleted, (contactMigration.run s).sent = s.sent ++ sent ∧
      (contactMigration.rollback (contactMigration.run s)).2 = .ok deleted ∧
      (∀ e id, ¬ s.target.outside.Present e id →
        ¬ (contactMigration.rollback (contactMigration.run s)).1.target.outside.Present e id) ∧
      ((∀ e id, s.target.outside.Present e id →
          (contactMigration.rollback (contactMigration.run s)).1.target.outside.Present e id) ↔
        contactMigration.config.upsert = false ∨
          ∀ e id, s.target.outside.Present e id → ¬ Batch.Holds sent e id) :=
  ⟨by decide +kernel, by decide +kernel,
    rollback_restores_iff contactMigration (contactStateWith "other_7") rfl rfl (by decide +kernel)⟩

/-- A contact that was there before the run and took part in it is gone after the rollback. -/
theorem rollback_deletes_replaced_contact :
    let s := contactStateWith "shop_1"
    (contactMigration.run s).run.status = .completed ∧
      s.target.outside.Present "contact" "shop_1" ∧
      ¬ (contactMigration.rollback
        (contactMigration.run s)).1.target.outside.Present "contact" "shop_1" := by
  decide +kernel

end Migration

end DataMigration
