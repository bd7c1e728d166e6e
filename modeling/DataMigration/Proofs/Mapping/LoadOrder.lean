import DataMigration.Proofs.Mapping.Blocked
import Mathlib.Data.List.Nodup

/-!
# The order that is asked for

A mapping may name what is to be loaded first, by names that many entity mappings answer to or
none. The order of the dependencies is gone through once for every name, and each time what answers
and was not taken before is taken; what is left at the end follows. Every position is taken exactly
once in this way, even where entity mappings are equal, and the outcome is a stable sort: by the
first name that an entity mapping answers to, and else as the dependencies have it.
-/

namespace DataMigration.Mapping

section Taking

variable {α : Type} [BEq α] [LawfulBEq α]

/-- Goes through elements and takes those that satisfy `p`, unless they were taken before. -/
def takeNew (p : α → Bool) (xs taken : List α) : List α :=
  xs.foldl (fun taken x => if p x && !taken.contains x then taken ++ [x] else taken) taken

theorem takeNew_eq {p : α → Bool} {xs : List α} (distinct : xs.Nodup) (taken : List α) :
    takeNew p xs taken = taken ++ xs.filter fun x => p x && !taken.contains x := by
  induction xs generalizing taken with
  | nil => exact (List.append_nil taken).symm
  | cons x xs ih =>
    obtain ⟨single, distinct⟩ := List.nodup_cons.1 distinct
    have step : takeNew p (x :: xs) taken =
        takeNew p xs (if p x && !taken.contains x then taken ++ [x] else taken) := rfl
    rw [step, ih distinct, List.filter_cons]
    split
    · -- the element that was just taken does not come again
      have others : ∀ y ∈ xs, (p y && !(taken ++ [x]).contains y) = (p y && !taken.contains y) := by
        intro y member
        have other : y ≠ x := fun same => single (same ▸ member)
        simp [other]
      rw [List.filter_congr others, List.append_assoc, List.singleton_append]
    · rfl

end Taking

variable (m : Mapping)

/-- The place of the first name that a position answers to, and the number of the names if it
answers to none. -/
def rank (names : List String) (i : m.Position) : Nat :=
  names.findIdx fun name => (m.entities.get i).answersTo name

/-- Goes through positions once for every name and once more at the end, and takes what answers and
is not taken yet. -/
def drawFrom (placed taken : List m.Position) (names : List String) : List m.Position :=
  takeNew (fun _ => true) placed
    (names.foldl
      (fun taken name => takeNew (fun i => (m.entities.get i).answersTo name) placed taken) taken)

variable {m}

theorem rank_cons (name : String) (names : List String) (i : m.Position) :
    m.rank (name :: names) i =
      if (m.entities.get i).answersTo name then 0 else m.rank names i + 1 := by
  unfold rank
  rw [List.findIdx_cons]
  cases (m.entities.get i).answersTo name <;> rfl

/-- Positions by their ranks; those of one rank as they stand in a list. -/
def Sorted (placed : List m.Position) (names : List String) (i j : m.Position) : Prop :=
  m.rank names i < m.rank names j ∨
    m.rank names i = m.rank names j ∧ placed.idxOf i < placed.idxOf j

/-- What is taken after some positions have been: the others, drawn forward name by name. -/
structure Drawn (placed taken rest : List m.Position) (names : List String) : Prop where
  perm : rest.Perm (placed.filter fun i => !taken.contains i)
  sorted : rest.Pairwise (Sorted placed names)
  forward : rest.map m.entities.get =
    drawForward names ((placed.filter fun i => !taken.contains i).map m.entities.get)

theorem pairwise_idxOf {placed : List m.Position} (distinct : placed.Nodup) :
    placed.Pairwise fun i j => placed.idxOf i < placed.idxOf j := by
  rw [List.pairwise_iff_getElem]
  intro i j hi hj lt
  rwa [distinct.idxOf_getElem, distinct.idxOf_getElem]

theorem drawFrom_drawn {placed : List m.Position} (distinct : placed.Nodup)
    (names : List String) (taken : List m.Position) :
    ∃ rest, m.drawFrom placed taken names = taken ++ rest ∧ Drawn placed taken rest names := by
  induction names generalizing taken with
  | nil =>
    refine ⟨placed.filter fun i => !taken.contains i, ?_, .refl _, ?_, rfl⟩
    · exact takeNew_eq distinct taken
    · exact ((pairwise_idxOf distinct).filter _).imp fun earlier => .inr ⟨rfl, earlier⟩
  | cons name names ih =>
    let answers := fun i => (m.entities.get i).answersTo name
    let left := placed.filter fun i => !taken.contains i
    have first : takeNew answers placed taken = taken ++ left.filter answers := by
      rw [takeNew_eq distinct, List.filter_filter]
    obtain ⟨rest, drawn, perm, sorted, forward⟩ := ih (taken ++ left.filter answers)
    have others : (placed.filter fun i => !(taken ++ left.filter answers).contains i) =
        left.filter fun i => !answers i := by
      refine .trans (List.filter_congr fun i member => ?_) List.filter_filter.symm
      simp only [left, List.contains_eq_mem, List.mem_append, List.mem_filter, member, true_and]
      cases answers i <;> by_cases i ∈ taken <;> simp [*]
    rw [others] at perm forward
    refine ⟨left.filter answers ++ rest, ?_, ?_, ?_, ?_⟩
    · rw [← List.append_assoc, ← drawn, drawFrom, List.foldl_cons, first]
      rfl
    · exact (perm.append_left _).trans (List.filter_append_perm answers left)
    · have front : ∀ i ∈ left.filter answers, m.rank (name :: names) i = 0 := fun i member => by
        rw [rank_cons, if_pos (List.mem_filter.1 member).2]
      have back : ∀ i ∈ rest, m.rank (name :: names) i = m.rank names i + 1 := fun i member => by
        have silent : answers i = false := by simpa using (List.mem_filter.1 (perm.subset member)).2
        rw [rank_cons, if_neg (Bool.eq_false_iff.1 silent)]
      refine List.pairwise_append.2 ⟨?_, ?_, fun i hi j hj => .inl ?_⟩
      · refine List.Pairwise.imp_of_mem (fun hi hj earlier => .inr ⟨?_, earlier⟩)
          (((pairwise_idxOf distinct).filter _).filter _)
        rw [front _ hi, front _ hj]
      · refine sorted.imp_of_mem fun hi hj earlier => ?_
        rw [Sorted, back _ hi, back _ hj]
        exact earlier.imp Nat.succ_lt_succ (And.imp_left (congrArg Nat.succ))
      · rw [front i hi, back j hj]
        exact Nat.succ_pos _
    · rw [List.map_append, forward, drawForward, List.filter_map, List.filter_map]
      rfl

/-- The positions of the document in the order of the dependencies. -/
theorem exists_placing (m : Mapping) : ∃ turns stuck : List m.Position,
    Placing [] (List.finRange _) turns stuck ∧
      m.dependencyOrder = (turns ++ stuck).map m.entities.get := by
  obtain ⟨sorted, rest, places, order⟩ := m.dependencyOrder_places
  have nothing : ([] : List m.Position).map m.entities.get = [] := rfl
  obtain ⟨turns, stuck, rfl, rfl, placing⟩ := places.placing nothing
    (List.map_get_finRange m.entities) (List.pairwise_lt_finRange _)
  exact ⟨turns, stuck, placing, by rw [order, List.map_append]⟩

theorem Placing.nodup {turns stuck : List m.Position}
    (placing : Placing [] (List.finRange _) turns stuck) : (turns ++ stuck).Nodup :=
  placing.perm.nodup_iff.2 (List.nodup_finRange _)

/-- The order of loading is what is drawn, name by name, from the order of the dependencies. It has
every position of the document once, and it is sorted by rank and, among positions of one rank, as
the dependencies have it. -/
theorem loadOrder_stable (m : Mapping) : ∃ turns stuck : List m.Position,
    Placing [] (List.finRange _) turns stuck ∧
      m.dependencyOrder = (turns ++ stuck).map m.entities.get ∧
      let drawn := m.drawFrom (turns ++ stuck) [] m.order
      m.loadOrder = drawn.map m.entities.get ∧
      drawn.Perm (List.finRange m.entities.length) ∧
      drawn.Pairwise (Sorted (turns ++ stuck) m.order) := by
  obtain ⟨turns, stuck, placing, order⟩ := m.exists_placing
  obtain ⟨rest, drawn, perm, sorted, forward⟩ := drawFrom_drawn placing.nodup m.order []
  have all : ((turns ++ stuck).filter fun i => !([] : List m.Position).contains i) =
      turns ++ stuck := List.filter_eq_self.2 fun _ _ => rfl
  rw [all] at perm forward
  rw [List.nil_append] at drawn
  refine ⟨turns, stuck, placing, order, ?_⟩
  rw [drawn]
  exact ⟨by rw [loadOrder, order, forward], perm.trans placing.perm, sorted⟩

/-- Customers come from two shops under one name, and both are asked for together; the refunds are
asked for by two names. -/
example :
    let entity := fun name target dependencies => ({
      name := name
      source := ⟨"shop", name⟩
      target := ⟨"billing", target⟩
      dependencies := dependencies } : EntityMapping)
    let m : Mapping := {
      name := "billing"
      entities := [entity "refunds" "notes" ["invoices"], entity "customers" "customer" [],
        entity "invoices" "invoice" [], entity "customers" "customer" []]
      order := ["coupons", "customer", "refunds", "Customers", "notes"] }
    m.loadOrder.map (·.name) = ["customers", "customers", "refunds", "invoices"] := by
  decide +kernel

end DataMigration.Mapping
