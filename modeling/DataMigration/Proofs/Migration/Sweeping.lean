import DataMigration.Proofs.Migration.Reachable

/-!
# What a rollback asks of its loader

A rollback asks its loader to delete records one after the other, and no answer keeps it from asking
on. For each entity that was loaded it asks once for each id noted as created, the entities in the
reverse of their order; and it counts for each entity the answers that a record was deleted.
-/

namespace DataMigration

/-- A record that a loader was asked to delete, and its answer. -/
structure Deletion where
  entity : String
  id : String
  answer : Except LoaderError Bool

/-- The record was there and was deleted. -/
def Deletion.succeeded (d : Deletion) : Bool :=
  match d.answer with
  | .ok deleted => deleted
  | .error _ => false

namespace Loader

variable {τ : Type} (loader : Loader τ)

/-- What a loader answers when it is asked to delete records, given by entity and id, one after the
other. -/
def deletions : List (String × String) → τ → List Deletion × τ
  | [], target => ([], target)
  | (entity, id) :: rest, target =>
    let first := loader.delete entity id target
    let others := deletions rest first.2
    (⟨entity, id, first.1⟩ :: others.1, others.2)

theorem deletions_append (calls calls' : List (String × String)) (target : τ) :
    loader.deletions (calls ++ calls') target =
      let first := loader.deletions calls target
      let second := loader.deletions calls' first.2
      (first.1 ++ second.1, second.2) := by
  induction calls generalizing target with
  | nil => rfl
  | cons call calls ih => simp only [List.cons_append, deletions, ih]

/-- The loader answers every call. -/
theorem map_deletions (calls : List (String × String)) (target : τ) :
    ((loader.deletions calls target).1.map fun d => (d.entity, d.id)) = calls := by
  induction calls generalizing target with
  | nil => rfl
  | cons call calls ih => simp only [deletions, List.map_cons, ih]

theorem entity_of_deletions {calls : List (String × String)} {target : τ} {d : Deletion}
    (h : d ∈ (loader.deletions calls target).1) : ∃ call ∈ calls, d.entity = call.1 := by
  have member : (d.entity, d.id) ∈ calls := by
    rw [← loader.map_deletions calls target]
    exact List.mem_map_of_mem h
  exact ⟨_, member, rfl⟩

/-- A target that takes down each call has exactly these calls in addition. -/
theorem log_deletions {log : τ → List (String × String)}
    (logs : ∀ entity id target,
      log (loader.delete entity id target).2 = log target ++ [(entity, id)])
    (calls : List (String × String)) (target : τ) :
    log (loader.deletions calls target).2 = log target ++ calls := by
  induction calls generalizing target with
  | nil => exact (List.append_nil _).symm
  | cons call calls ih =>
    simp only [deletions]
    rw [ih, logs, List.append_assoc]
    rfl

end Loader

/-- The number of records of an entity that were deleted. -/
def deletedOf (entity : String) (ds : List Deletion) : Nat :=
  ds.countP fun d => d.entity == entity && d.succeeded

theorem deletedOf_append (entity : String) (ds ds' : List Deletion) :
    deletedOf entity (ds ++ ds') = deletedOf entity ds + deletedOf entity ds' :=
  List.countP_append

/-- The ids that are noted as created for an entity. -/
def Run.createdIds (r : Run) (entity : String) : List String := (Dict.get? r.created entity).getD []

/-- The records of entities that are noted as created, by entity and id. -/
def Run.createdOf (r : Run) (entities : List String) : List (String × String) :=
  entities.flatMap fun entity => (r.createdIds entity).map fun id => (entity, id)

namespace Run

theorem createdOf_cons (r : Run) (entity : String) (entities : List String) :
    r.createdOf (entity :: entities) =
      ((r.createdIds entity).map fun id => (entity, id)) ++ r.createdOf entities := rfl

theorem entity_of_createdOf {r : Run} {entities : List String} {call : String × String}
    (h : call ∈ r.createdOf entities) : call.1 ∈ entities := by
  obtain ⟨entity, member, own⟩ := List.mem_flatMap.1 h
  obtain ⟨id, _, rfl⟩ := List.mem_map.1 own
  exact member

/-- All records of one entity are together, in the order in which they were noted. -/
theorem filter_createdOf (r : Run) {entities : List String} (once : entities.Nodup)
    {entity : String} (known : r.createdIds entity ≠ [] → entity ∈ entities) :
    (r.createdOf entities).filter (·.1 == entity) =
      (r.createdIds entity).map fun id => (entity, id) := by
  induction entities with
  | nil =>
    have nothing : r.createdIds entity = [] := by
      by_contra some
      exact List.not_mem_nil (known some)
    rw [nothing]
    rfl
  | cons e entities ih =>
    obtain ⟨new, once⟩ := List.nodup_cons.1 once
    rw [createdOf_cons, List.filter_append]
    by_cases own : e = entity
    · subst own
      have others : (r.createdOf entities).filter (·.1 == e) = [] := by
        refine List.filter_eq_nil_iff.2 fun call member same => new ?_
        rw [← eq_of_beq same]
        exact entity_of_createdOf member
      rw [others, List.append_nil]
      exact List.filter_eq_self.2 fun call member => by
        obtain ⟨id, _, rfl⟩ := List.mem_map.1 member
        exact beq_self_eq_true e
    · have none : ((r.createdIds e).map fun id => (e, id)).filter (·.1 == entity) = [] := by
        refine List.filter_eq_nil_iff.2 fun call member same => own ?_
        obtain ⟨id, _, rfl⟩ := List.mem_map.1 member
        exact eq_of_beq same
      rw [none, List.nil_append]
      refine ih once fun some => ?_
      exact (List.mem_cons.1 (known some)).resolve_left (Ne.symm own)

end Run

namespace Migration

variable {σ : Type}

/-! ## The sweep -/

theorem deleteOne_eq (loader : Loader (Target σ)) (entity id : String) (acc : Nat × Target σ) :
    deleteOne loader entity acc id =
      let deleted := loader.deletions [(entity, id)] acc.2
      (acc.1 + deletedOf entity deleted.1, deleted.2) := by
  simp only [deleteOne, Loader.deletions, deletedOf, List.countP_singleton, beq_self_eq_true,
    Bool.true_and, Deletion.succeeded]
  generalize loader.delete entity id acc.2 = p
  obtain ⟨e | deleted, target⟩ := p
  · rfl
  · cases deleted <;> rfl

/-- One entity is swept by asking for all its ids, whatever the answers. -/
theorem foldl_deleteOne (loader : Loader (Target σ)) (entity : String) (ids : List String)
    (acc : Nat × Target σ) :
    ids.foldl (deleteOne loader entity) acc =
      let deleted := loader.deletions (ids.map fun id => (entity, id)) acc.2
      (acc.1 + deletedOf entity deleted.1, deleted.2) := by
  induction ids generalizing acc with
  | nil => rfl
  | cons id ids ih =>
    have split : ((id :: ids).map fun id => (entity, id)) =
        [(entity, id)] ++ ids.map fun id => (entity, id) := rfl
    rw [List.foldl_cons, ih, deleteOne_eq, split, loader.deletions_append]
    simp only [deletedOf_append, Nat.add_assoc]

/-- Nothing of an entity is deleted when others are swept. -/
theorem deletedOf_createdOf (loader : Loader (Target σ)) (r : Run) {entities : List String}
    {entity : String} (h : entity ∉ entities) (target : Target σ) :
    deletedOf entity (loader.deletions (r.createdOf entities) target).1 = 0 := by
  refine List.countP_eq_zero.2 fun d member own => h ?_
  obtain ⟨call, asked, same⟩ := loader.entity_of_deletions member
  have named := eq_of_beq (Bool.and_eq_true_iff.1 own).1
  rw [← named, same]
  exact Run.entity_of_createdOf asked

theorem sweepEntity_eq (loader : Loader (Target σ)) (r : Run) (acc : Dict Nat × Target σ)
    (entity : String) :
    sweepEntity loader r.created acc entity =
      let deleted := loader.deletions (r.createdOf [entity]) acc.2
      (Dict.insert acc.1 entity (deletedOf entity deleted.1), deleted.2) := by
  simp only [sweepEntity, foldl_deleteOne, Nat.zero_add, Run.createdOf, List.flatMap_cons,
    List.flatMap_nil, List.append_nil]
  rfl

/-- Entities are swept by asking for their ids one entity after the other, and each of them has the
number of its records that were deleted. -/
theorem foldl_sweepEntity (loader : Loader (Target σ)) (r : Run) {entities : List String}
    (once : entities.Nodup) (acc : Dict Nat × Target σ) :
    let swept := entities.foldl (sweepEntity loader r.created) acc
    let deleted := loader.deletions (r.createdOf entities) acc.2
    swept.2 = deleted.2 ∧ ∀ entity, Dict.get? swept.1 entity =
      if entity ∈ entities then some (deletedOf entity deleted.1)
      else Dict.get? acc.1 entity := by
  induction entities generalizing acc with
  | nil => exact ⟨rfl, fun _ => rfl⟩
  | cons e entities ih =>
    obtain ⟨new, once⟩ := List.nodup_cons.1 once
    have split : r.createdOf (e :: entities) = r.createdOf [e] ++ r.createdOf entities :=
      @List.flatMap_append _ _ [e] entities _
    obtain ⟨target, counts⟩ := ih once (sweepEntity loader r.created acc e)
    simp only [List.foldl_cons, split, loader.deletions_append]
    rw [sweepEntity_eq] at target counts ⊢
    refine ⟨target, fun entity => ?_⟩
    rw [counts, deletedOf_append, Dict.get?_insert]
    by_cases own : entity = e
    · subst own
      rw [deletedOf_createdOf loader r new]
      simp [new]
    · have other : entity ∉ [e] := fun member => own (List.mem_singleton.1 member)
      rw [deletedOf_createdOf loader r other]
      simp [own]

/-- Where only entities with created ids are known, they are swept in the reverse of the order of
loading. -/
theorem sweepOrder_eq {s : MigrationState σ} (rests : s.AtRest)
    (completed : s.run.status = .completed) : sweepOrder s = s.run.loaded.reverse := by
  have others : (s.run.created.keys.filter fun e => !s.loadedEntities.reverse.contains e) = [] := by
    refine List.filter_eq_nil_iff.2 fun e known => ?_
    simp [rests.created e known]
  simp only [sweepOrder, others, List.append_nil, rests.steps completed]

/-- What a rollback that went through did with its loader, and what it counted. -/
structure SweptBy (loader : Loader (Target σ)) (s t : MigrationState σ) (counts : Dict Nat) :
    Prop where
  /-- The entities are swept in the reverse of the order in which they were loaded, each once. -/
  once : s.run.loaded.reverse.Nodup
  /-- For each entity its created ids are asked for, in the order in which they were noted. -/
  together : ∀ entity, (s.run.createdOf s.run.loaded.reverse).filter (·.1 == entity) =
    (s.run.createdIds entity).map fun id => (entity, id)
  /-- Every call is answered, and no answer keeps the rollback from the next call. -/
  asked : ((loader.deletions (s.run.createdOf s.run.loaded.reverse) s.target).1.map fun d =>
    (d.entity, d.id)) = s.run.createdOf s.run.loaded.reverse
  target : t.target = (loader.deletions (s.run.createdOf s.run.loaded.reverse) s.target).2
  /-- A target that takes down the calls has these and no others. -/
  logged : ∀ log : Target σ → List (String × String),
    (∀ entity id target,
      log (loader.delete entity id target).2 = log target ++ [(entity, id)]) →
    log t.target = log s.target ++ s.run.createdOf s.run.loaded.reverse
  counts : ∀ entity, Dict.get? counts entity =
    if entity ∈ s.run.loaded then
      some (deletedOf entity
        (loader.deletions (s.run.createdOf s.run.loaded.reverse) s.target).1)
    else none
  status : t.run.status = .rolledBack

theorem rollback_sweptBy (m : Migration σ) {s : MigrationState σ} {loader : Loader (Target σ)}
    (rests : s.AtRest) (completed : s.run.status = .completed) (found : s.loader = some loader) :
    ∃ counts, (m.rollback s).2 = .ok counts ∧ SweptBy loader s (m.rollback s).1 counts := by
  obtain ⟨run, files, path, rolled, status, _⟩ := m.rollback_of_completed completed found
  have once : s.run.loaded.reverse.Nodup :=
    (List.reverse_perm _).nodup_iff.2 (rests.steps completed ▸ rests.once)
  obtain ⟨target, counts⟩ := foldl_sweepEntity loader s.run once ([], s.target)
  rw [sweepOrder_eq rests completed] at rolled
  rw [rolled]
  refine ⟨_, rfl, once, fun entity => ?_, loader.map_deletions _ _, target, fun log logs => ?_,
    fun entity => ?_, status⟩
  · refine s.run.filter_createdOf once fun some => ?_
    rw [List.mem_reverse, rests.steps completed]
    refine rests.created entity ?_
    by_contra unknown
    exact some (by rw [Run.createdIds, Dict.get?_eq_none_iff.2 unknown]; rfl)
  · simp only [target]
    exact loader.log_deletions logs _ _
  · simp only [counts, List.mem_reverse]
    rfl

/-- A rollback is refused exactly if no loader was built or the run is not completed, and then it
changes nothing. Otherwise it asks once for each id that the run noted as created: the entities in
the reverse of the order in which they were loaded, and for each of them all its ids in the order in
which they were noted. It asks on whatever the answers are, it counts for each entity the records
that were deleted, and the run is rolled back. -/
theorem rollback_sweeps_once (m : Migration σ) {s : MigrationState σ} (reachable : s.Reachable) :
    ((∃ e, (m.rollback s).2 = .error e) ↔ s.loader = none ∨ s.run.status ≠ .completed) ∧
    (∀ e, (m.rollback s).2 = .error e → (m.rollback s).1 = s) ∧
    ∀ counts, (m.rollback s).2 = .ok counts →
      ∃ loader, s.loader = some loader ∧ SweptBy loader s (m.rollback s).1 counts := by
  have rests := reachable.atRest
  by_cases refused : s.loader = none ∨ s.run.status ≠ .completed
  · obtain ⟨e, rolled⟩ := m.rollback_refused rests.forward refused
    rw [rolled]
    exact ⟨⟨fun _ => refused, fun _ => ⟨e, rfl⟩⟩, fun _ _ => rfl, fun _ ok => nomatch ok⟩
  · obtain ⟨present, completed⟩ := not_or.1 refused
    obtain ⟨loader, found⟩ := Option.ne_none_iff_exists'.1 present
    obtain ⟨counts, rolled, swept⟩ := m.rollback_sweptBy rests (not_not.1 completed) found
    have succeeds : ∀ e, (m.rollback s).2 ≠ .error e := by
      intro e failed
      rw [rolled] at failed
      cases failed
    refine ⟨⟨?_, fun h => absurd h refused⟩, fun e failed => absurd failed (succeeds e), ?_⟩
    · rintro ⟨e, failed⟩
      exact absurd failed (succeeds e)
    · intro counts' ok
      obtain rfl : counts = counts' := Except.ok.inj (rolled.symm.trans ok)
      exact ⟨loader, found, swept⟩

/-- A loader that takes every record, and answers deletions from a list. -/
def answering (service : String) : Loader (List (Except LoaderError Bool)) where
  service
  load r _ answers := (.ok (.loaded r r.id), answers)
  delete _ _ answers := (answers.headD (.ok false), answers.tail)

/-- Users and orders of a shop become contacts and invoices. -/
def salesMigration : Migration (List (Except LoaderError Bool)) where
  config := { name := "sales", targetService := "crm" }
  connectors := Connectors.withLoader {} "crm" fun _ => .ok (answering "crm")
  now := ⟨0, 0⟩

/-- The mapping of users and orders. -/
def salesMapping : Mapping where
  name := "sales"
  entities := [
    { name := "buyers", source := ⟨"shop", "user"⟩, target := ⟨"crm", "contact"⟩
      fields := [.copy "mail" "email"] },
    { name := "orders", source := ⟨"shop", "order"⟩, target := ⟨"crm", "invoice"⟩
      fields := [.copy "sum" "total"] }]

/-- Two users and an order, before they are sent to a loader that will answer as given. -/
def salesState (answers : List (Except LoaderError Bool)) :
    MigrationState (List (Except LoaderError Bool)) :=
  salesMigration.addSourceData "shop" "order" [.obj [("id", .str "7"), ("sum", .str "20")]]
    (salesMigration.addSourceData "shop" "user"
      [.obj [("id", .str "1"), ("mail", .str "ann@x.org")],
        .obj [("id", .str "2"), ("mail", .str "bob@x.org")]]
      { salesMigration.initial answers with mapping := some salesMapping })

/-- The invoice cannot be deleted, one contact is deleted and the other one is not there. -/
theorem salesMigration_rollback_sweeps_once :
    let s := salesMigration.run (salesState [.error (.connection "crm"), .ok true, .ok false])
    s.Reachable ∧
    s.run.createdOf s.run.loaded.reverse =
      [("invoice", "shop_7"), ("contact", "shop_1"), ("contact", "shop_2")] ∧
    ∃ loader, s.loader = some loader ∧
      SweptBy loader s (salesMigration.rollback s).1 [("contact", 1), ("invoice", 0)] := by
  intro s
  have reachable : s.Reachable :=
    .run _ (.addSourceData _ (.addSourceData _ (.meanwhile (.initial _ _) _ _ _ _ _) _ _ _) _ _ _)
  obtain ⟨_, _, sweeps⟩ := rollback_sweeps_once salesMigration reachable
  have counts : (salesMigration.rollback s).2.toOption = some [("contact", 1), ("invoice", 0)] := by
    decide +kernel
  refine ⟨reachable, by decide +kernel, sweeps _ ?_⟩
  cases rolled : (salesMigration.rollback s).2 with
  | error e => rw [rolled] at counts; cases counts
  | ok found =>
    rw [rolled] at counts
    cases counts
    rfl

end Migration

end DataMigration
