import DataMigration.Proofs.Mapping.DependencyOrder
import Mathlib.Order.WellFoundedSet

/-!
# The order of target entities

Records are loaded entity by entity, so what mappings depend on has to be read as what entities
need. An entity takes the place of the first mapping that fills it; another mapping into the same
entity may have dependencies that are not met at that place. So the order of the entities respects
the dependencies exactly if whichever mapping opens an entity comes after mappings into everything
that the entity needs. This can be read off the document when each mapping names all needs of its
entity.
-/

namespace DataMigration

/-- A dependency of the mapping is answered by the other one, which fills another entity. -/
def EntityMapping.DependsOn (a d : EntityMapping) : Prop :=
  (∃ name ∈ a.dependencies, d.answersTo name = true) ∧ d.target.entity ≠ a.target.entity

instance (a d : EntityMapping) : Decidable (a.DependsOn d) :=
  inferInstanceAs (Decidable (_ ∧ _))

namespace Mapping

/-- Some mapping into the first entity depends on a mapping into the second. -/
def Needs (m : Mapping) (e e' : String) : Prop :=
  ∃ a ∈ m.entities, ∃ d ∈ m.entities,
    a.DependsOn d ∧ a.target.entity = e ∧ d.target.entity = e'

/-- No entity needs itself in the end. -/
def Acyclic (m : Mapping) : Prop := ∀ e, ¬ Relation.TransGen m.Needs e e

/-- Whatever a mapping depends on fills an entity that comes before its own. -/
def RespectsDependencies (m : Mapping) : Prop :=
  ∀ a ∈ m.entities, ∀ d ∈ m.entities, a.DependsOn d →
    m.targetOrder.idxOf d.target.entity < m.targetOrder.idxOf a.target.entity

instance (m : Mapping) : Decidable m.RespectsDependencies :=
  inferInstanceAs (Decidable (∀ a ∈ m.entities, ∀ d ∈ m.entities, _))

/-- The first mapping into an entity comes after mappings into all that the entity needs. -/
def OpensInOrder (m : Mapping) : Prop :=
  ∀ before a after, m.dependencyOrder = before ++ a :: after →
    (∀ b ∈ before, b.target.entity ≠ a.target.entity) →
    ∀ e, m.Needs a.target.entity e → ∃ b ∈ before, b.target.entity = e

/-- Each mapping into an entity names all that the entity needs, by names that nothing else answers
to, and no dependency can be met by mappings into the same entity only. -/
structure NamesNeeds (m : Mapping) : Prop where
  named : ∀ a ∈ m.entities, ∀ e, m.Needs a.target.entity e → ∃ name ∈ a.dependencies,
    (∃ d ∈ m.entities, d.answersTo name = true) ∧
      ∀ d ∈ m.entities, d.answersTo name = true → d.target.entity = e
  outside : ∀ a ∈ m.entities, ∀ name ∈ a.dependencies,
    (∃ d ∈ m.entities, d.answersTo name = true) →
      ∃ d ∈ m.entities, d.answersTo name = true ∧ d.target.entity ≠ a.target.entity

variable {m : Mapping}

theorem Needs.ne {e e' : String} (needs : m.Needs e e') : e' ≠ e := by
  obtain ⟨a, _, d, _, ⟨_, other⟩, rfl, rfl⟩ := needs
  exact other

theorem acyclic_of_rank (rank : String → Nat)
    (falls : ∀ a ∈ m.entities, ∀ d ∈ m.entities, a.DependsOn d →
      rank d.target.entity < rank a.target.entity) : m.Acyclic := by
  have below : ∀ {e e'}, Relation.TransGen m.Needs e e' → rank e' < rank e := by
    intro e e' way
    induction way with
    | single needs =>
      obtain ⟨a, own, d, known, depends, rfl, rfl⟩ := needs
      exact falls a own d known depends
    | tail _ needs ih =>
      obtain ⟨a, own, d, known, depends, rfl, rfl⟩ := needs
      exact (falls a own d known depends).trans ih
  exact fun e way => (below way).false

/-- Without cycles there is no end to entities that need one another. -/
theorem Acyclic.exists_free (acyclic : m.Acyclic) {ms : List EntityMapping} (some : ms ≠ []) :
    ∃ a ∈ ms, ∀ d ∈ ms, ¬ m.Needs a.target.entity d.target.entity := by
  let later := fun e' e => Relation.TransGen m.Needs e e'
  have : IsStrictOrder String later :=
    { irrefl := acyclic, trans := fun _ _ _ way way' => way'.trans way }
  let filled := {e | e ∈ ms.map fun a => a.target.entity}
  have founded : filled.WellFoundedOn later := (List.finite_toSet _).wellFoundedOn
  obtain ⟨a, own⟩ := List.exists_mem_of_ne_nil ms some
  obtain ⟨⟨e, filled⟩, _, free⟩ := founded.has_min Set.univ
    ⟨⟨a.target.entity, List.mem_map.2 ⟨a, own, rfl⟩⟩, trivial⟩
  obtain ⟨b, member, rfl⟩ := List.mem_map.1 filled
  exact ⟨b, member, fun d h needs =>
    free ⟨_, List.mem_map.2 ⟨d, h, rfl⟩⟩ trivial (Relation.TransGen.single needs)⟩

theorem targetOrder_of_unordered (unordered : m.order = []) :
    m.targetOrder = firsts (m.dependencyOrder.map fun a => a.target.entity) := by
  rw [targetOrder, loadOrder, unordered, drawForward]

theorem respectsDependencies_iff_needs : m.RespectsDependencies ↔
    ∀ e e', m.Needs e e' → m.targetOrder.idxOf e' < m.targetOrder.idxOf e := by
  refine ⟨?_, fun h a own d known depends => h _ _ ⟨a, own, d, known, depends, rfl, rfl⟩⟩
  rintro h _ _ ⟨a, own, d, known, depends, rfl, rfl⟩
  exact h a own d known depends

/-- An entity that needs something is opened by one of the mappings. -/
theorem exists_opening (m : Mapping) {e e' : String} (needs : m.Needs e e') :
    ∃ a before after, m.dependencyOrder = before ++ a :: after ∧ a.target.entity = e ∧
      ∀ b ∈ before, b.target.entity ≠ a.target.entity := by
  obtain ⟨b, own, _, _, _, rfl, _⟩ := needs
  have found : (m.dependencyOrder.find? fun a => a.target.entity == b.target.entity).isSome :=
    List.find?_isSome.2 ⟨b, m.mem_dependencyOrder.2 own, beq_self_eq_true _⟩
  obtain ⟨a, first⟩ := Option.isSome_iff_exists.1 found
  obtain ⟨same, before, after, split, others⟩ := List.find?_eq_some_iff_append.1 first
  have same : a.target.entity = b.target.entity := by simpa using same
  exact ⟨a, before, after, split, same, fun c h => by simpa [same] using others c h⟩

/-- The entities are in the order of the dependencies exactly if they are opened in it. -/
theorem respectsDependencies_iff (unordered : m.order = []) :
    m.RespectsDependencies ↔ m.OpensInOrder := by
  rw [respectsDependencies_iff_needs]
  simp only [targetOrder_of_unordered unordered, idxOf_firsts_lt_iff]
  refine ⟨?_, ?_⟩
  · intro respects before a after split opens e needs
    have first : a.target.entity ∉ before.map fun b => b.target.entity := fun h =>
      let ⟨b, member, same⟩ := List.mem_map.1 h
      opens b member same
    have earlier := respects _ _ needs
    rw [split, List.map_append, List.map_cons, idxOf_lt_idxOf_iff first] at earlier
    exact List.mem_map.1 earlier
  · intro opens e e' needs
    obtain ⟨a, before, after, split, rfl, first⟩ := m.exists_opening needs
    rw [split, List.map_append, List.map_cons, idxOf_lt_idxOf_iff (by simpa using first)]
    exact List.mem_map.2 (opens before a after split first e' needs)

/-- If the document names all needs and has no cycles, nothing is left to be placed as it stands. -/
theorem NamesNeeds.all_ready (names : m.NamesNeeds) (acyclic : m.Acyclic)
    {before after : List EntityMapping} {a : EntityMapping}
    (turn : m.dependencyOrder = before ++ a :: after) : isReady m.entities before a = true := by
  obtain ⟨sorted, rest, places, order⟩ := m.dependencyOrder_places
  have none : rest = [] := by
    by_contra left
    obtain ⟨b, member, free⟩ := acyclic.exists_free left
    have own : b ∈ m.entities := places.perm.subset (List.mem_append_right _ member)
    have blocked := places.blocked b member
    simp only [isReady, isMet, List.all_eq_false, Bool.not_eq_true, Bool.or_eq_false_iff,
      Bool.not_eq_false', List.any_eq_true, List.any_eq_false, List.nil_append] at blocked
    obtain ⟨name, listed, known, unmet⟩ := blocked
    obtain ⟨d, known, answers, other⟩ := names.outside b own name listed known
    have behind : d ∈ rest := by
      refine (List.mem_append.1 (places.perm.mem_iff.2 known)).resolve_left fun h => ?_
      exact Bool.false_ne_true ((unmet d h).symm.trans answers)
    exact free d behind ⟨b, own, d, known, ⟨⟨name, listed, answers⟩, other⟩, rfl, rfl⟩
  rw [order, none, List.append_nil] at turn
  exact places.ready turn

theorem NamesNeeds.opensInOrder (names : m.NamesNeeds) (acyclic : m.Acyclic) :
    m.OpensInOrder := by
  intro before a after turn _ e needs
  have own : a ∈ m.entities := m.mem_dependencyOrder.1 (turn ▸ by simp)
  obtain ⟨name, listed, ⟨d, known, answers⟩, only⟩ := names.named a own e needs
  have ready := names.all_ready acyclic turn
  have met : isMet m.entities before name = true := List.all_eq_true.1 ready name listed
  have knows : (m.entities.any fun d => d.answersTo name) = true :=
    List.any_eq_true.2 ⟨d, known, answers⟩
  rw [isMet, knows, Bool.not_true, Bool.false_or] at met
  obtain ⟨b, placed, answers⟩ := List.any_eq_true.1 met
  have known : b ∈ m.entities := m.mem_dependencyOrder.1 (turn ▸ List.mem_append_left _ placed)
  exact ⟨b, placed, only b known answers⟩

end Mapping

end DataMigration
