import DataMigration.Proofs.Mapping.DependencyOrder
import Mathlib.Data.List.FinRange
import Mathlib.Order.Bounds.Defs

/-!
# Mappings that block each other

The same entity mapping may stand in a document twice, so it is the positions in the document that
are placed. Positions are blocked when each of them depends on something that only they answer to.
No order can place one of them before its dependencies. The placing in turn fails for these only:
what is left when nothing is ready is the largest set of blocked positions.
-/

namespace DataMigration.Mapping

/-- The entity mapping at a position of the document. -/
abbrev Position (m : Mapping) : Type := Fin m.entities.length

variable (m : Mapping)

/-- The mapping at a position answers to a name. -/
def Answers (i : m.Position) (name : String) : Prop := (m.entities.get i).answersTo name = true

/-- Every dependency that is answered at all is answered by one of the positions before. -/
def Satisfied (before : List m.Position) (i : m.Position) : Prop :=
  ∀ name ∈ (m.entities.get i).dependencies,
    (∃ j, m.Answers j name) → ∃ j ∈ before, m.Answers j name

/-- Each position depends on something that is answered, but only by positions among them. -/
def Blocked (positions : Set m.Position) : Prop :=
  positions.Nonempty ∧ ∀ i ∈ positions, ∃ name ∈ (m.entities.get i).dependencies,
    (∃ j, m.Answers j name) ∧ ∀ j, m.Answers j name → j ∈ positions

/-- At each turn the first position of the document is placed whose dependencies are satisfied. -/
def InTurn (sorted : List m.Position) : Prop :=
  ∀ before i after, sorted = before ++ i :: after →
    m.Satisfied before i ∧ ∀ j < i, j ∉ before → ¬ m.Satisfied before j

variable {m}

theorem isReady_iff {before : List m.Position} {i : m.Position} :
    isReady m.entities (before.map m.entities.get) (m.entities.get i) = true ↔
      m.Satisfied before i := by
  have known : ∀ name, (m.entities.any fun e => e.answersTo name) = true ↔
      ∃ j, m.Answers j name := fun name => by
    simp only [List.any_eq_true, List.exists_mem_iff_get]
    rfl
  simp only [isReady, isMet, List.all_eq_true, Bool.or_eq_true, Bool.not_eq_true', Satisfied]
  refine forall₂_congr fun name _ => ?_
  rw [← Bool.not_eq_true, known, List.any_map, List.any_eq_true, ← imp_iff_not_or]
  rfl

/-- After others, positions of the document have been placed in turn until none of those that are
stuck is satisfied. -/
structure Placing (before document turns stuck : List m.Position) : Prop where
  perm : (turns ++ stuck).Perm document
  ordered : stuck.Pairwise (· < ·)
  unsatisfied : ∀ i ∈ stuck, ¬ m.Satisfied (before ++ turns) i
  turn : ∀ earlier i later, turns = earlier ++ i :: later →
    m.Satisfied (before ++ earlier) i ∧
      ∀ j ∈ document, j < i → j ∉ earlier → ¬ m.Satisfied (before ++ earlier) j

/-- One turn more, in front of the others. -/
theorem Placing.place {before front back turns stuck : List m.Position} {i : m.Position}
    (placing : Placing (before ++ [i]) (front ++ back) turns stuck)
    (ordered : (front ++ i :: back).Pairwise (· < ·))
    (skipped : ∀ j ∈ front, ¬ m.Satisfied before j) (ready : m.Satisfied before i) :
    Placing before (front ++ i :: back) (i :: turns) stuck := by
  constructor
  · exact (placing.perm.cons i).trans List.perm_middle.symm
  · exact placing.ordered
  · rw [List.append_cons]
    exact placing.unsatisfied
  · intro earlier i' later turn
    obtain ⟨rfl, same⟩ | ⟨earlier, rfl, rest⟩ := List.cons_eq_append_iff.1 turn
    · obtain ⟨rfl, _⟩ := List.cons.inj same
      rw [List.append_nil]
      refine ⟨ready, fun j member first _ => ?_⟩
      obtain ahead | (_ | ⟨_, behind⟩) := List.mem_append.1 member
      · exact skipped j ahead
      · exact absurd first (lt_irrefl _)
      · -- what comes later in the document is not in front of this position
        have later := List.rel_of_pairwise_cons (List.pairwise_append.1 ordered).2.1 behind
        exact absurd (first.trans later) (lt_irrefl _)
    · obtain ⟨ready, first⟩ := placing.turn earlier i' later rest
      rw [List.append_cons]
      refine ⟨ready, fun j member before absent => first j ?_ before ?_⟩
      · obtain ahead | (_ | ⟨_, behind⟩) := List.mem_append.1 member
        · exact List.mem_append_left _ ahead
        · exact absurd List.mem_cons_self absent
        · exact List.mem_append_right _ behind
      · exact fun seen => absent (List.mem_cons_of_mem _ seen)

/-- Placing mappings is placing their positions. -/
theorem Places.placing {placed remaining sorted rest : List EntityMapping}
    (places : Places m.entities placed remaining sorted rest)
    {before document : List m.Position} (own : before.map m.entities.get = placed)
    (left : document.map m.entities.get = remaining) (ordered : document.Pairwise (· < ·)) :
    ∃ turns stuck : List m.Position, turns.map m.entities.get = sorted ∧
      stuck.map m.entities.get = rest ∧ Placing before document turns stuck := by
  induction places generalizing before document with
  | stuck blocked =>
    subst own left
    refine ⟨[], document, rfl, rfl, .refl _, ordered, fun i member => ?_, ?_⟩
    · rw [List.append_nil, ← isReady_iff, Bool.not_eq_true]
      exact blocked _ (List.mem_map_of_mem member)
    · intro earlier i later none
      simp at none
  | place skipped ready _ ih =>
    subst own
    obtain ⟨front, tail, rfl, rfl, right⟩ := List.map_eq_append_iff.1 left
    obtain ⟨i, back, rfl, rfl, rfl⟩ := List.map_eq_cons_iff.1 right
    have fewer : (front ++ back).Sublist (front ++ i :: back) :=
      (List.sublist_cons_self i back).append_left front
    obtain ⟨turns, stuck, rfl, rfl, placing⟩ := @ih (before ++ [i]) (front ++ back)
      (by rw [List.map_append]; rfl) List.map_append (ordered.sublist fewer)
    refine ⟨i :: turns, stuck, rfl, rfl, placing.place ordered (fun j member => ?_) ?_⟩
    · rw [← isReady_iff, Bool.not_eq_true]
      exact skipped _ (List.mem_map_of_mem member)
    · exact isReady_iff.1 ready

namespace Placing

variable {turns stuck : List m.Position}

/-- No blocked position gets its turn. -/
theorem not_mem_of_blocked (placing : Placing [] (List.finRange _) turns stuck)
    {positions : Set m.Position} (blocked : m.Blocked positions) : ∀ i ∈ turns, i ∉ positions := by
  have early : ∀ earlier, earlier <+: turns → ∀ i ∈ earlier, i ∉ positions := by
    intro earlier
    induction earlier using List.reverseRecOn with
    | nil => exact fun _ => List.forall_mem_nil _
    | append_singleton earlier i ih =>
      rintro ⟨later, whole⟩
      rw [List.append_assoc] at whole
      have apart := ih ⟨_, whole⟩
      refine List.forall_mem_append.2 ⟨apart, List.forall_mem_singleton.2 fun member => ?_⟩
      -- whatever its dependency is answered by is among the positions and comes before it
      obtain ⟨name, listed, answered, only⟩ := blocked.2 i member
      obtain ⟨ready, _⟩ := placing.turn earlier i later whole.symm
      obtain ⟨j, seen, answers⟩ := ready name listed answered
      exact apart j seen (only j answers)
  exact early turns (List.prefix_refl _)

/-- The positions that are stuck block each other. -/
theorem blocked_stuck (placing : Placing [] (List.finRange _) turns stuck) (some : stuck ≠ []) :
    m.Blocked {i | i ∈ stuck} := by
  refine ⟨List.exists_mem_of_ne_nil _ some, fun i member => ?_⟩
  have unsatisfied := placing.unsatisfied i member
  simp only [Satisfied, not_forall, List.nil_append] at unsatisfied
  obtain ⟨name, listed, answered, unmet⟩ := unsatisfied
  refine ⟨name, listed, answered, fun j answers => ?_⟩
  have placed : j ∈ turns ++ stuck := placing.perm.mem_iff.2 (List.mem_finRange j)
  exact (List.mem_append.1 placed).resolve_left fun seen => unmet ⟨j, seen, answers⟩

end Placing

/-- The order of the dependencies is a permutation of the document: positions that are placed in
turn, then those that are stuck, as they stand. None is stuck if none is blocked; else those that
are stuck are the largest set of blocked positions. -/
theorem dependencyOrder_blocked (m : Mapping) : ∃ turns stuck : List m.Position,
    m.dependencyOrder = (turns ++ stuck).map m.entities.get ∧
      (turns ++ stuck).Perm (List.finRange m.entities.length) ∧ m.InTurn turns ∧
      stuck.Pairwise (· < ·) ∧ ((∀ positions, ¬ m.Blocked positions) → stuck = []) ∧
      ((∃ positions, m.Blocked positions) →
        IsGreatest {positions | m.Blocked positions} {i | i ∈ stuck}) := by
  obtain ⟨sorted, rest, places, order⟩ := m.dependencyOrder_places
  have nothing : ([] : List m.Position).map m.entities.get = [] := rfl
  obtain ⟨turns, stuck, rfl, rfl, placing⟩ := places.placing nothing
    (List.map_get_finRange m.entities) (List.pairwise_lt_finRange _)
  refine ⟨turns, stuck, ?_, placing.perm, ?_, placing.ordered, fun unblocked => ?_, ?_⟩
  · rw [order, List.map_append]
  · intro before i after turn
    obtain ⟨ready, first⟩ := placing.turn before i after turn
    exact ⟨ready, fun j => first j (List.mem_finRange j)⟩
  · by_contra some
    exact unblocked _ (placing.blocked_stuck some)
  · rintro ⟨positions, blocked⟩
    have within : ∀ {positions : Set m.Position}, m.Blocked positions →
        ∀ i ∈ positions, i ∈ stuck := fun blocked i member =>
      (List.mem_append.1 (placing.perm.mem_iff.2 (List.mem_finRange i))).resolve_left
        fun placed => placing.not_mem_of_blocked blocked i placed member
    obtain ⟨i, member⟩ := blocked.1
    exact ⟨placing.blocked_stuck (List.ne_nil_of_mem (within blocked i member)),
      fun _ blocked => within blocked⟩

/-- Invoices and credits wait for each other, and refunds for the invoices. -/
example :
    let entity := fun name dependencies => ({
      name := name
      source := ⟨"shop", name⟩
      target := ⟨"billing", name⟩
      dependencies := dependencies } : EntityMapping)
    let m : Mapping := {
      name := "billing"
      entities := [entity "refunds" ["Invoices"], entity "invoices" ["credits", "plans"],
        entity "credits" ["invoices"], entity "plans" ["coupons"]] }
    m.dependencyOrder.map (·.name) = ["plans", "refunds", "invoices", "credits"] := by
  decide +kernel

end DataMigration.Mapping
