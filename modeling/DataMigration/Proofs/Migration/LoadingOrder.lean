import DataMigration.Proofs.Mapping.EntityOrder
import DataMigration.Proofs.Migration.Delivery

/-!
# Dependencies and the order of loading

The batches of a run follow the order of the target entities. If that order respects the
dependencies, no batch of an entity comes before a batch of another entity that it needs; whether
the order does so depends on which mapping opens each entity.
-/

namespace DataMigration.Mapping

variable {mapping : Mapping}

/-- Entities that are loaded keep the order of the mapping. -/
theorem RespectsDependencies.loadEntities (respects : mapping.RespectsDependencies)
    (working : List WorkingSet) :
    (Migration.loadEntities mapping working).Pairwise fun x y => ¬ mapping.Needs x y := by
  let present := working.map fun w => w.target.entity
  refine pairwise_firsts fun x y loaded earlier needs => ?_
  have filled : present.contains y = true := by
    rw [List.contains_iff_mem]
    exact (List.mem_append.1 loaded).elim
      (fun h => List.contains_iff_mem.1 (List.mem_filter.1 h).2) id
  have ordered := respectsDependencies_iff_needs.1 respects x y needs
  exact (idxOf_append_lt (idxOf_filter_lt ordered filled)).asymm earlier

/-- No batch of an entity is planned before one of an entity that it needs. -/
theorem RespectsDependencies.plan {σ : Type} (respects : mapping.RespectsDependencies)
    (m : Migration σ) (working : List WorkingSet) :
    (m.plan working (Migration.loadEntities mapping working)).Pairwise
      fun x y => ¬ mapping.Needs x.entity y.entity := by
  have own : ∀ entity, ∀ x ∈ m.parcels entity (m.recordsToLoad working entity),
      x.entity = entity := by
    rintro entity x h
    obtain ⟨part, _, rfl⟩ := List.mem_map.1 h
    rfl
  refine List.pairwise_flatMap.2 ⟨fun entity _ => ?_, ?_⟩
  · refine List.Pairwise.imp_of_mem ?_ (List.pairwise_of_forall fun _ _ => trivial)
    intro x y hx hy _ needs
    exact needs.ne ((own entity y hy).trans (own entity x hx).symm)
  · refine (respects.loadEntities working).imp fun free x hx y hy needs => free ?_
    rwa [← own _ x hx, ← own _ y hy]

/-- Dependencies decide the order in which entities are loaded, and with it that of the batches,
exactly if every entity is opened by a mapping that comes after all that the entity needs. -/
theorem loads_in_order_iff (unordered : mapping.order = []) :
    (mapping.RespectsDependencies ↔ mapping.OpensInOrder) ∧
    (mapping.Acyclic → mapping.NamesNeeds → mapping.RespectsDependencies) ∧
    (mapping.RespectsDependencies → ∀ {σ : Type} (m : Migration σ) (s : MigrationState σ),
      m.resolveMapping s = .ok mapping →
        (m.run s).sent = s.sent ∨ ∃ ready loader done rest,
          m.Delivery s mapping ready loader done rest ∧ (m.run s).sent = s.sent ++ done ∧
          (done ++ rest).Pairwise fun x y => ¬ mapping.Needs x.entity y.entity) := by
  have opens := respectsDependencies_iff unordered
  refine ⟨opens, fun acyclic names => opens.2 (names.opensInOrder acyclic), ?_⟩
  intro respects σ m s resolved
  obtain ⟨untouched, _⟩ | ⟨used, ready, loader, done, rest, delivery⟩ :=
    m.run_untouched_or_delivers s
  · exact .inl untouched.sent
  · obtain rfl : used = mapping := Except.ok.inj (delivery.resolved.symm.trans resolved)
    refine .inr ⟨ready, loader, done, rest, delivery, delivery.sends.sent, ?_⟩
    rw [delivery.whole]
    exact respects.plan m ready.working

/-- A mapping between entities of two shops. -/
def shopEntity (name source target : String) (dependencies : List String) : EntityMapping :=
  { name, source := ⟨"shop", source⟩, target := ⟨"billing", target⟩, dependencies }

/-- Customers from two sources, both of which need the plans. -/
def shopMapping : Mapping where
  name := "shop"
  entities := [
    shopEntity "subscriptions" "orders" "subscriptions" ["customers"],
    shopEntity "members" "members" "customers" ["plans"],
    shopEntity "guests" "guests" "customers" ["Plans"],
    shopEntity "plans" "offers" "plans" []]

theorem shopMapping_names_needs : shopMapping.NamesNeeds where
  named := by
    rintro a own _ ⟨b, second, d, known, depends, same, rfl⟩
    have named : ∀ a ∈ shopMapping.entities, ∀ b ∈ shopMapping.entities,
        b.target.entity = a.target.entity → ∀ d ∈ shopMapping.entities, b.DependsOn d →
        ∃ name ∈ a.dependencies, (∃ d ∈ shopMapping.entities, d.answersTo name = true) ∧
          ∀ d' ∈ shopMapping.entities, d'.answersTo name = true →
            d'.target.entity = d.target.entity := by decide +kernel
    exact named a own b second same d known depends
  outside := by decide +kernel

theorem shopMapping_loads_in_order : shopMapping.order = [] ∧ shopMapping.Acyclic ∧
    shopMapping.RespectsDependencies ∧ shopMapping.OpensInOrder := by
  have acyclic : shopMapping.Acyclic :=
    acyclic_of_rank (fun e => ["plans", "customers", "subscriptions"].idxOf e) (by decide +kernel)
  have order := @loads_in_order_iff shopMapping rfl
  have respects := order.2.1 acyclic shopMapping_names_needs
  exact ⟨rfl, acyclic, respects, order.1.1 respects⟩

/-- The members open the customers, and only the guests need the plans. -/
def guestMapping : Mapping where
  name := "guests"
  entities := [
    shopEntity "members" "members" "customers" [],
    shopEntity "guests" "guests" "customers" ["plans"],
    shopEntity "plans" "offers" "plans" []]

theorem guestMapping_loads_out_of_order : guestMapping.order = [] ∧ guestMapping.Acyclic ∧
    guestMapping.targetOrder = ["customers", "plans"] ∧ ¬ guestMapping.RespectsDependencies := by
  have acyclic : guestMapping.Acyclic :=
    acyclic_of_rank (fun e => ["plans", "customers"].idxOf e) (by decide +kernel)
  exact ⟨rfl, acyclic, by decide +kernel, by decide +kernel⟩

end DataMigration.Mapping
