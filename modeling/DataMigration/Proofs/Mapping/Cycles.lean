import DataMigration.Proofs.Mapping.LoadOrder
import Mathlib.Order.WellFounded
import Mathlib.Data.Fintype.Order
import Mathlib.Logic.Relation

/-!
# Behind a cycle

Entity mappings that block each other are left over when nothing is ready, and whatever waits for
them is left over with them. All that is left over follows as it stands in the document, so an
entity mapping that merely waits for a cycle may come before what it depends on, although the two
are in no cycle. What comes first is decided by the cycle behind the dependency: where there is
none, the order of the dependency is kept.
-/

namespace DataMigration.Mapping

variable (m : Mapping)

/-- A dependency of the first position is answered by the second. -/
def Awaits (i j : m.Position) : Prop :=
  ∃ name ∈ (m.entities.get i).dependencies, m.Answers j name

/-- A dependency of the first position is answered by the second and by no third one. -/
def AwaitsOnly (i j : m.Position) : Prop :=
  ∃ name ∈ (m.entities.get i).dependencies,
    m.Answers j name ∧ ∀ k, m.Answers k name → k = i ∨ k = j

/-- The position is one of several that block each other. -/
def IsBlocked (i : m.Position) : Prop := ∃ positions, m.Blocked positions ∧ i ∈ positions

instance (i : m.Position) (name : String) : Decidable (m.Answers i name) :=
  inferInstanceAs (Decidable (_ = true))

instance (i j : m.Position) : Decidable (m.Awaits i j) :=
  inferInstanceAs (Decidable (∃ name ∈ (m.entities.get i).dependencies, _))

instance (i j : m.Position) : Decidable (m.AwaitsOnly i j) :=
  inferInstanceAs (Decidable (∃ name ∈ (m.entities.get i).dependencies, _))

variable {m}

/-- Whoever is blocked waits in the end for a position that waits for itself. -/
theorem IsBlocked.exists_cycle {j : m.Position} (blocked : m.IsBlocked j) :
    ∃ k, Relation.ReflTransGen m.Awaits j k ∧ Relation.TransGen m.Awaits k k := by
  obtain ⟨positions, blocked, member⟩ := blocked
  by_contra none
  -- among what the position waits for, waiting is a strict order, and it has a last position
  let later := fun l k =>
    Relation.ReflTransGen m.Awaits j k ∧ Relation.TransGen m.Awaits k l
  have : IsTrans m.Position later := ⟨fun _ _ _ first second =>
    ⟨second.1, second.2.trans first.2⟩⟩
  have : Std.Irrefl later := ⟨fun k cycle => none ⟨k, cycle.1, cycle.2⟩⟩
  have founded : WellFounded later := Finite.wellFounded_of_trans_of_irrefl later
  let reached := {k | k ∈ positions ∧ Relation.ReflTransGen m.Awaits j k}
  obtain ⟨k, ⟨inside, way⟩, last⟩ := founded.has_min reached ⟨j, member, .refl⟩
  obtain ⟨name, listed, ⟨l, answers⟩, only⟩ := blocked.2 k inside
  have awaits : m.Awaits k l := ⟨name, listed, answers⟩
  exact last l ⟨only l answers, way.tail awaits⟩ ⟨way, .single awaits⟩

namespace Placing

variable {turns stuck : List m.Position} (placing : Placing [] (List.finRange _) turns stuck)

include placing

theorem mem_append (i : m.Position) : i ∈ turns ++ stuck :=
  placing.perm.mem_iff.2 (List.mem_finRange i)

/-- Those that are left over are the blocked positions. -/
theorem mem_stuck_iff {i : m.Position} : i ∈ stuck ↔ m.IsBlocked i := by
  constructor
  · exact fun member => ⟨_, placing.blocked_stuck (List.ne_nil_of_mem member), member⟩
  · rintro ⟨positions, blocked, member⟩
    exact (List.mem_append.1 (placing.mem_append i)).resolve_left fun placed =>
      placing.not_mem_of_blocked blocked i placed member

/-- Those that are left over are as the document has them. -/
theorem idxOf_stuck_lt_iff {i j : m.Position} (left : i ∈ stuck) (left' : j ∈ stuck) :
    (turns ++ stuck).idxOf j < (turns ++ stuck).idxOf i ↔ j < i := by
  have apart := List.disjoint_of_nodup_append placing.nodup
  rw [List.idxOf_append_of_notMem fun placed => apart placed left,
    List.idxOf_append_of_notMem fun placed => apart placed left', Nat.add_lt_add_iff_left]
  have rising := List.pairwise_iff_getElem.1 placing.ordered
  have inside := List.idxOf_lt_length_of_mem left
  have inside' := List.idxOf_lt_length_of_mem left'
  obtain before | same | after := Nat.lt_trichotomy (stuck.idxOf j) (stuck.idxOf i)
  · refine iff_of_true before ?_
    simpa only [List.getElem_idxOf] using rising _ _ inside' inside before
  · rw [(List.idxOf_inj left').1 same]
    exact iff_of_false (Nat.lt_irrefl _) (lt_irrefl _)
  · have behind : i < j := by
      simpa only [List.getElem_idxOf] using rising _ _ inside inside' after
    exact iff_of_false after.not_gt behind.not_gt

/-- What only one other position answers comes first, unless that position is left over and stands
later in the document. -/
theorem idxOf_lt_iff {i j : m.Position} (other : j ≠ i) (awaits : m.AwaitsOnly i j) :
    (turns ++ stuck).idxOf j < (turns ++ stuck).idxOf i ↔ j < i ∨ ¬ m.IsBlocked j := by
  rw [← placing.mem_stuck_iff]
  have apart := List.disjoint_of_nodup_append placing.nodup
  obtain placed | left := List.mem_append.1 (placing.mem_append i)
  · -- when the position has its turn, what it waits for was placed before
    obtain ⟨before, after, rfl⟩ := List.append_of_mem placed
    obtain ⟨name, listed, answers, only⟩ := awaits
    have new : i ∉ before := fun seen =>
      List.disjoint_of_nodup_append (List.nodup_append.1 placing.nodup).1 seen
        List.mem_cons_self
    obtain ⟨k, seen, answers'⟩ := (placing.turn before i after rfl).1 name listed ⟨j, answers⟩
    rw [List.nil_append] at seen
    obtain rfl | rfl := only k answers'
    · exact absurd seen new
    · rw [List.append_assoc, List.cons_append, idxOf_lt_idxOf_iff new]
      exact iff_of_true seen (.inr (apart (List.mem_append_left _ seen)))
  · obtain placed | left' := List.mem_append.1 (placing.mem_append j)
    · refine iff_of_true ?_ (.inr (apart placed))
      rw [List.idxOf_append_of_mem placed, List.idxOf_append_of_notMem fun h => apart h left]
      exact Nat.lt_add_right _ (List.idxOf_lt_length_of_mem placed)
    · rw [placing.idxOf_stuck_lt_iff left left', or_iff_left fun free => free left']

end Placing

/-- A dependency that only one other position answers is loaded first exactly if that position
stands earlier in the document or is not blocked. So it is loaded first whenever nothing that it
waits for is in a cycle, whatever cycles there are elsewhere. -/
theorem comes_before_iff (m : Mapping) (unordered : m.order = []) :
    ∃ turns stuck : List m.Position, Placing [] (List.finRange _) turns stuck ∧
      m.loadOrder = (turns ++ stuck).map m.entities.get ∧
      ∀ i j, j ≠ i → m.AwaitsOnly i j →
        ((turns ++ stuck).idxOf j < (turns ++ stuck).idxOf i ↔ j < i ∨ ¬ m.IsBlocked j) ∧
        ((∀ k, Relation.ReflTransGen m.Awaits j k → ¬ Relation.TransGen m.Awaits k k) →
          (turns ++ stuck).idxOf j < (turns ++ stuck).idxOf i) := by
  obtain ⟨turns, stuck, placing, order⟩ := m.exists_placing
  refine ⟨turns, stuck, placing, ?_, fun i j other awaits => ?_⟩
  · rw [loadOrder, unordered, drawForward, order]
  · have first := placing.idxOf_lt_iff other awaits
    refine ⟨first, fun acyclic => first.2 (.inr fun blocked => ?_)⟩
    obtain ⟨k, way, cycle⟩ := blocked.exists_cycle
    exact acyclic k way cycle

/-- An entity of a shop that is billed, under one name on both sides. -/
def billedEntity (name : String) (dependencies : List String) : EntityMapping where
  name := name
  source := ⟨"shop", name⟩
  target := ⟨"billing", name⟩
  dependencies := dependencies

/-- Coupons and campaigns wait for each other; the invoices need plans, and these currencies. -/
def currencyMapping : Mapping where
  name := "currencies"
  entities := [billedEntity "invoices" ["plans"], billedEntity "coupons" ["campaigns"],
    billedEntity "campaigns" ["coupons"], billedEntity "plans" ["currencies"],
    billedEntity "currencies" []]

/-- The plans come before the invoices although they stand later and others are in a cycle. -/
theorem currencyMapping_comes_before :
    let invoices : currencyMapping.Position := ⟨0, by decide⟩
    let plans : currencyMapping.Position := ⟨3, by decide⟩
    currencyMapping.order = [] ∧ plans ≠ invoices ∧ currencyMapping.AwaitsOnly invoices plans ∧
      (∀ k, Relation.ReflTransGen currencyMapping.Awaits plans k →
        ¬ Relation.TransGen currencyMapping.Awaits k k) ∧
      ∃ turns stuck : List currencyMapping.Position,
        Placing [] (List.finRange _) turns stuck ∧
        currencyMapping.loadOrder = (turns ++ stuck).map currencyMapping.entities.get ∧
        (turns ++ stuck).idxOf plans < (turns ++ stuck).idxOf invoices := by
  intro invoices plans
  have rises : ∀ k l, plans ≤ k → currencyMapping.Awaits k l → k < l := by decide +kernel
  have late : ∀ {k}, Relation.ReflTransGen currencyMapping.Awaits plans k → plans ≤ k := by
    intro k way
    induction way with
    | refl => exact le_refl _
    | tail _ awaits late => exact late.trans (rises _ _ late awaits).le
  have later : ∀ {k l}, plans ≤ k → Relation.TransGen currencyMapping.Awaits k l → k < l := by
    intro k l late way
    induction way with
    | single awaits => exact rises _ _ late awaits
    | tail _ awaits far => exact far.trans (rises _ _ (late.trans far.le) awaits)
  have acyclic : ∀ k, Relation.ReflTransGen currencyMapping.Awaits plans k →
      ¬ Relation.TransGen currencyMapping.Awaits k k :=
    fun k way cycle => (later (late way) cycle).false
  have other : plans ≠ invoices := by decide
  have awaits : currencyMapping.AwaitsOnly invoices plans := by decide +kernel
  obtain ⟨turns, stuck, placing, order, first⟩ := comes_before_iff currencyMapping rfl
  exact ⟨rfl, other, awaits, acyclic, turns, stuck, placing, order,
    (first invoices plans other awaits).2 acyclic⟩

/-- Here the plans need the coupons. -/
def couponMapping : Mapping where
  name := "coupons"
  entities := [billedEntity "invoices" ["plans"], billedEntity "plans" ["coupons"],
    billedEntity "coupons" ["campaigns"], billedEntity "campaigns" ["coupons"]]

/-- The invoices come before the plans that they need, and neither of them is in a cycle. -/
theorem couponMapping_comes_after :
    let invoices : couponMapping.Position := ⟨0, by decide⟩
    let plans : couponMapping.Position := ⟨1, by decide⟩
    couponMapping.order = [] ∧ plans ≠ invoices ∧ couponMapping.AwaitsOnly invoices plans ∧
      ¬ Relation.TransGen couponMapping.Awaits plans invoices ∧
      ¬ Relation.TransGen couponMapping.Awaits plans plans ∧
      couponMapping.loadOrder.map (·.name) = ["invoices", "plans", "coupons", "campaigns"] := by
  intro invoices plans
  have unasked : ∀ k, ¬ couponMapping.Awaits k invoices := by decide +kernel
  have asking : ∀ k, couponMapping.Awaits k plans → k = invoices := by decide +kernel
  refine ⟨rfl, by decide, by decide +kernel, fun way => ?_, fun way => ?_, by decide +kernel⟩
  · obtain ⟨k, _, awaits⟩ := Relation.TransGen.tail'_iff.1 way
    exact unasked k awaits
  · obtain ⟨k, way, awaits⟩ := Relation.TransGen.tail'_iff.1 way
    obtain rfl := asking k awaits
    obtain same | ⟨l, _, awaits⟩ := way.cases_tail
    · exact absurd same (by decide)
    · exact unasked l awaits

end DataMigration.Mapping
