import DataMigration.Proofs.Migration.Conservation
import DataMigration.Proofs.Migration.Loadable

/-!
# Records of several services

Up to validation the working set keeps the entities of different services apart. Loading puts the
records of all entities with one name together, whatever their service, merges duplicates among
them and sends them to the one target. So the services stay apart exactly where the working set
allows nothing else.
-/

namespace DataMigration.Migration

variable {σ : Type} (m : Migration σ)

/-- The pairs of records of an entity that are merged before it is loaded. -/
def merges (working : List WorkingSet) (entity : String) : List (TargetRecord × TargetRecord) :=
  if m.config.deduplication.isEmpty then []
  else TargetRecord.joins (m.config.dedupKey entity) m.config.preferredSource
    (entityRecords working entity) []

/-- The services of records are kept apart: what is sent is for the service of the target, and
records that are merged have one service. -/
structure Separates (working : List WorkingSet) (sent : List Batch) : Prop where
  target : ∀ b ∈ sent, ∀ r ∈ b.records,
    Text.sameIgnoringCase r.service m.config.targetService = true
  merged : ∀ entity, ∀ p ∈ m.merges working entity, p.1.service = p.2.service

/-- Two records of an entity count as one. -/
def Duplicates (entity : String) (r r' : TargetRecord) : Prop :=
  m.config.deduplication.isEmpty = false ∧
    ∃ k, r.key? (m.config.dedupKey entity) = some k ∧ r'.key? (m.config.dedupKey entity) = some k

/-- The working set has records for the service of the target only, and duplicates in sets of one
entity are for one service. -/
structure Separable (working : List WorkingSet) : Prop where
  target : ∀ set ∈ working, set.records ≠ [] →
    Text.sameIgnoringCase set.target.service m.config.targetService = true
  duplicates : ∀ set ∈ working, ∀ set' ∈ working, set.target.entity = set'.target.entity →
    ∀ r ∈ set.records, ∀ r' ∈ set'.records, m.Duplicates set.target.entity r r' →
      set.target.service = set'.target.service

variable {m}

theorem mem_entityRecords {working : List WorkingSet} {entity : String} {r : TargetRecord} :
    r ∈ entityRecords working entity ↔
      ∃ set ∈ working, set.target.entity = entity ∧ r ∈ set.records := by
  simp [entityRecords, and_assoc]

theorem exists_mem_parcels_iff {entity : String} {records : List TargetRecord}
    {r : TargetRecord} : (∃ b ∈ m.parcels entity records, r ∈ b.records) ↔ r ∈ records := by
  conv_rhs => rw [← batches_flatten m.config.batchSize records, List.mem_flatten]
  simp only [parcels, List.mem_map, exists_exists_and_eq_and]

/-- What is planned to be sent, record by record. -/
theorem exists_mem_plan_iff {working : List WorkingSet} {entities : List String}
    {r : TargetRecord} : (∃ b ∈ m.plan working entities, r ∈ b.records) ↔
      ∃ entity ∈ entities, r ∈ m.recordsToLoad working entity := by
  constructor
  · rintro ⟨b, planned, inside⟩
    obtain ⟨entity, own, planned⟩ := List.mem_flatMap.1 planned
    exact ⟨entity, own, exists_mem_parcels_iff.1 ⟨b, planned, inside⟩⟩
  · rintro ⟨entity, own, member⟩
    obtain ⟨b, planned, inside⟩ := exists_mem_parcels_iff.2 member
    exact ⟨b, List.mem_flatMap.2 ⟨entity, own, planned⟩, inside⟩

/-- All pairs that are merged have one service exactly when all duplicates have. -/
theorem merges_iff {working : List WorkingSet} {entity : String} :
    (∀ p ∈ m.merges working entity, p.1.service = p.2.service) ↔
      ∀ r ∈ entityRecords working entity, ∀ r' ∈ entityRecords working entity,
        m.Duplicates entity r r' → r.service = r'.service := by
  unfold merges Duplicates
  cases m.config.deduplication.isEmpty with
  | true => simp
  | false =>
    rw [if_neg Bool.false_ne_true, TargetRecord.joins_nil_iff fun _ _ => rfl]
    constructor
    · rintro alike r member r' member' ⟨_, k, key, key'⟩
      exact alike r member r' member' k key key'
    · intro same r member r' member' k key key'
      exact same r member r' member' ⟨rfl, k, key, key'⟩

/-- The services of the records that are sent are those of all records of the entity, where only
records of one service are merged. -/
theorem exists_mem_recordsToLoad_iff {working : List WorkingSet} {entity service : String}
    (same : ∀ p ∈ m.merges working entity, p.1.service = p.2.service) :
    (∃ r ∈ m.recordsToLoad working entity, r.service = service) ↔
      ∃ r ∈ entityRecords working entity, r.service = service := by
  unfold merges at same
  unfold recordsToLoad
  split at same
  · rename_i apart
    rw [if_pos apart]
  · rename_i some
    rw [if_neg some]
    exact TargetRecord.exists_mem_deduplicate_iff (fun _ _ => rfl) same

/-- Records in working sets are for the service of their set. -/
def Placed (working : List WorkingSet) : Prop :=
  WorkingSet.All (fun target r => r.service = target.service) working

/-- What a separable working set sends and merges is kept apart. -/
theorem Separable.separates {working : List WorkingSet} {mapping : Mapping}
    {done rest : List Batch} (placed : Placed working) (separable : m.Separable working)
    (whole : done ++ rest = m.plan working (loadEntities mapping working)) :
    m.Separates working done where
  target b member r inside := by
    obtain ⟨entity, _, sent⟩ :=
      exists_mem_plan_iff.1 ⟨b, whole ▸ List.mem_append_left rest member, inside⟩
    refine recordsToLoad_all (P := fun r =>
      Text.sameIgnoringCase r.service m.config.targetService = true) (fun _ _ own _ => own)
      (fun set present _ r inside => ?_) r sent
    rw [placed set present r inside]
    exact separable.target set present (List.ne_nil_of_mem inside)
  merged entity := by
    refine merges_iff.2 fun r member r' member' both => ?_
    obtain ⟨set, present, rfl, inside⟩ := mem_entityRecords.1 member
    obtain ⟨set', present', own, inside'⟩ := mem_entityRecords.1 member'
    rw [placed set present r inside, placed set' present' r' inside']
    exact separable.duplicates set present set' present' own.symm r inside r' inside' both

/-- A working set that is sent as a whole is separable if that keeps its records apart. -/
theorem Separates.separable {working : List WorkingSet} {mapping : Mapping} {done : List Batch}
    (placed : Placed working) (separates : m.Separates working done)
    (whole : done = m.plan working (loadEntities mapping working)) : m.Separable working where
  target set present some := by
    obtain ⟨r, inside⟩ := List.exists_mem_of_ne_nil set.records some
    have member : r ∈ entityRecords working set.target.entity :=
      mem_entityRecords.2 ⟨set, present, rfl, inside⟩
    have loaded : set.target.entity ∈ loadEntities mapping working := by
      by_contra absent
      rw [mem_loadEntities absent] at member
      cases member
    obtain ⟨r', planned, same⟩ :=
      (exists_mem_recordsToLoad_iff (separates.merged set.target.entity)).2 ⟨r, member, rfl⟩
    obtain ⟨b, sent, inside'⟩ := exists_mem_plan_iff.2 ⟨_, loaded, planned⟩
    have own := separates.target b (whole ▸ sent) r' inside'
    rwa [same, placed set present r inside] at own
  duplicates set present set' present' own r inside r' inside' both := by
    rw [← placed set present r inside, ← placed set' present' r' inside']
    exact merges_iff.1 (separates.merged set.target.entity) r
      (mem_entityRecords.2 ⟨set, present, rfl, inside⟩) r'
      (mem_entityRecords.2 ⟨set', present', own.symm, inside'⟩) both

/-- A run that comes to its target keeps the records of different services apart if its working set
is separable, and only then if it sends everything. The working set is separable if all entity
mappings lead to the service of the target. -/
theorem run_separates_iff (m : Migration σ) (s : MigrationState σ) :
    (m.run s).sent = s.sent ∨
    ∃ mapping ready loader done rest, m.Delivery s mapping ready loader done rest ∧
      (m.run s).sent = s.sent ++ done ∧
      (m.Separable ready.working → m.Separates ready.working done) ∧
      (rest = [] → m.Separates ready.working done → m.Separable ready.working) ∧
      ((∀ em ∈ mapping.entities, em.target.service = m.config.targetService) →
        m.Separable ready.working) := by
  obtain ⟨untouched, _⟩ | ⟨mapping, ready, loader, done, rest, delivery⟩ :=
    m.run_untouched_or_delivers s
  · exact .inl untouched.sent
  · have prepared : ∀ P : EntityRef → Prop, (∀ em ∈ mapping.entities, P em.target) →
        WorkingSet.All (fun target r => P target ∧ r.service = target.service) ready.working :=
      fun P targets set present r inside =>
        have all := prepare_all (s := adopt mapping (m.fresh s)) rfl targets delivery.prepared
          set present r inside
        ⟨all.1, all.2.1⟩
    have placed : Placed ready.working := fun set present r inside =>
      (prepared (fun _ => True) (fun _ _ => trivial) set present r inside).2
    refine .inr ⟨mapping, ready, loader, done, rest, delivery, delivery.sends.sent,
      fun separable => separable.separates placed delivery.whole, ?_, fun targets => ?_⟩
    · rintro rfl separates
      exact separates.separable placed (by rw [← delivery.whole, List.append_nil])
    · have own : ∀ set ∈ ready.working, ∀ r ∈ set.records,
          set.target.service = m.config.targetService := fun set present r inside =>
        (prepared (fun target => target.service = m.config.targetService) targets set present r
          inside).1
      refine ⟨fun set present some => ?_, ?_⟩
      · obtain ⟨r, inside⟩ := List.exists_mem_of_ne_nil set.records some
        rw [own set present r inside]
        exact Text.sameIgnoringCase_refl _
      · intro set present set' present' _ r inside r' inside' _
        rw [own set present r inside, own set' present' r' inside']

/-- The users of two shops, whose contacts are kept by two services. -/
def twoServicesState : MigrationState Memory :=
  contactMigration.addSourceData "market" "user"
    [.obj [("area", .str "north"), ("id", .str "7"), ("mail", .str "Ann@x.org")],
      .obj [("area", .str "south"), ("id", .str "8"), ("mail", .str "bob@x.org")]]
    (contactMigration.addSourceData "shop" "user"
      [.obj [("id", .str "1"), ("mail", .str "ann@x.org"), ("tier", .str "gold")]]
      { contactMigration.initial [] with
        mapping := some {
          name := "contacts"
          entities := [
            { name := "buyers", source := ⟨"shop", "user"⟩, target := ⟨"crm", "contact"⟩
              fields := [.copy "mail" "email", .copy "tier" "meta_data.tier"] },
            { name := "sellers", source := ⟨"market", "user"⟩, target := ⟨"erp", "contact"⟩
              fields := [.copy "mail" "email", .copy "area" "meta_data.area"] }] } })

/-- The contact of the one service takes over what is known about that of the other, and the second
contact of the other service is sent to the one as well. -/
theorem twoServicesState_mixed :
    contactMigration.config.targetService = "crm" ∧
    ((contactMigration.merges (contactMigration.run twoServicesState).working "contact").map
      fun p => (p.1.service, p.2.service)) = [("crm", "erp")] ∧
    ((contactMigration.run twoServicesState).sent.map fun b =>
      b.records.map fun r => (r.service, r.data)) =
      [[("crm", [("email", .str "ann@x.org"),
          ("meta_data", .obj [("area", .str "north"), ("tier", .str "gold")])]),
        ("erp", [("email", .str "bob@x.org"), ("meta_data", .obj [("area", .str "south")])])]] :=
  ⟨rfl, by decide +kernel, by decide +kernel⟩

end DataMigration.Migration
