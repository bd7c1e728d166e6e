import DataMigration.Mapping.Order
import Mathlib.Data.List.Basic
import Mathlib.Data.List.Induction

/-!
# Placing mappings

How the entity mappings come to their order: as long as one of those that remain is ready, the
first such one is placed; when none is ready the rest follows as it stands. The order has each
entity mapping as often as the document.
-/

namespace DataMigration.Mapping

section Lists

variable {α : Type}

theorem takeFirst?_eq_none {p : α → Bool} {xs : List α} :
    takeFirst? p xs = none ↔ ∀ x ∈ xs, p x = false := by
  induction xs with
  | nil => simp [takeFirst?]
  | cons x xs ih =>
    by_cases first : p x = true
    · simp [takeFirst?, first]
    · simp [takeFirst?, first, ih]

theorem takeFirst?_eq_some {p : α → Bool} {xs rest : List α} {x : α}
    (found : takeFirst? p xs = some (x, rest)) :
    ∃ before after, xs = before ++ x :: after ∧ rest = before ++ after ∧
      (∀ y ∈ before, p y = false) ∧ p x = true := by
  induction xs generalizing rest with
  | nil => nomatch found
  | cons y ys ih =>
    by_cases first : p y = true
    · simp only [takeFirst?, first, if_true, Option.some.injEq, Prod.mk.injEq] at found
      obtain ⟨rfl, rfl⟩ := found
      exact ⟨[], ys, rfl, rfl, (List.forall_mem_nil _), first⟩
    · simp only [takeFirst?, first] at found
      obtain ⟨⟨z, others⟩, later, taken⟩ := Option.map_eq_some_iff.1 found
      obtain ⟨rfl, rfl⟩ := Prod.mk.inj taken
      obtain ⟨before, after, rfl, rfl, skipped, ready⟩ := ih later
      refine ⟨y :: before, after, rfl, rfl, ?_, ready⟩
      rintro z (_ | ⟨_, h⟩)
      · simpa using first
      · exact skipped z h

variable [BEq α] [LawfulBEq α]

theorem firsts_concat (xs : List α) (x : α) :
    firsts (xs ++ [x]) = if x ∈ firsts xs then firsts xs else firsts xs ++ [x] := by
  simp only [firsts, List.foldl_append, List.foldl_cons, List.foldl_nil, List.contains_iff_mem]

@[simp] theorem mem_firsts {xs : List α} {x : α} : x ∈ firsts xs ↔ x ∈ xs := by
  induction xs using List.reverseRecOn with
  | nil => rfl
  | append_singleton xs y ih =>
    rw [firsts_concat]
    split
    · rename_i seen
      rw [List.mem_append, List.mem_singleton, ih]
      exact ⟨.inl, fun h => h.elim id fun same => ih.1 (same ▸ seen)⟩
    · simp [ih]

theorem nodup_firsts (xs : List α) : (firsts xs).Nodup := by
  induction xs using List.reverseRecOn with
  | nil => exact List.nodup_nil
  | append_singleton xs y ih =>
    rw [firsts_concat]
    split
    · exact ih
    · rename_i new
      refine List.nodup_append.2 ⟨ih, List.pairwise_singleton _ y, ?_⟩
      rintro a seen _ (_ | ⟨_, h⟩) rfl
      · exact new seen
      · exact nomatch h

/-- Leaving out repetitions keeps the order in which elements first appear. -/
theorem idxOf_firsts_lt_iff {xs : List α} {a b : α} :
    (firsts xs).idxOf b < (firsts xs).idxOf a ↔ xs.idxOf b < xs.idxOf a := by
  induction xs using List.reverseRecOn with
  | nil => rfl
  | append_singleton xs y ih =>
    have length : ∀ z, z ∈ xs → xs.idxOf z < xs.length := fun z => List.idxOf_lt_length_of_mem
    have length' : ∀ z, z ∈ firsts xs → (firsts xs).idxOf z < (firsts xs).length :=
      fun z => List.idxOf_lt_length_of_mem
    rw [firsts_concat]
    split
    all_goals
      simp only [List.idxOf_append, mem_firsts, List.idxOf_cons, List.idxOf_nil] at *
      grind

theorem pairwise_firsts {R : α → α → Prop} {xs : List α}
    (ordered : ∀ a, ∀ b ∈ xs, xs.idxOf a < xs.idxOf b → R a b) : (firsts xs).Pairwise R := by
  rw [List.pairwise_iff_getElem]
  intro i j hi hj lt
  apply ordered _ _ (mem_firsts.1 (List.getElem_mem hj))
  rw [← idxOf_firsts_lt_iff, (nodup_firsts xs).idxOf_getElem, (nodup_firsts xs).idxOf_getElem]
  exact lt

/-- An element comes before another one if it is among those in front of it. -/
theorem idxOf_lt_idxOf_iff {before after : List α} {a b : α} (first : a ∉ before) :
    (before ++ a :: after).idxOf b < (before ++ a :: after).idxOf a ↔ b ∈ before := by
  have place : (before ++ a :: after).idxOf a = before.length := by
    rw [List.idxOf_append_of_notMem first, List.idxOf_cons_self, Nat.add_zero]
  rw [place]
  refine ⟨fun h => ?_, fun h => ?_⟩
  · by_contra absent
    rw [List.idxOf_append_of_notMem absent] at h
    omega
  · rw [List.idxOf_append_of_mem h]
    exact List.idxOf_lt_length_of_mem h

theorem idxOf_filter_lt {p : α → Bool} {xs : List α} {a b : α}
    (earlier : xs.idxOf b < xs.idxOf a) (kept : p b = true) :
    (xs.filter p).idxOf b < (xs.filter p).idxOf a := by
  induction xs with
  | nil => exact earlier
  | cons x xs ih =>
    simp only [List.filter_cons, List.idxOf_cons] at *
    grind

theorem idxOf_append_lt {xs ys : List α} {a b : α} (earlier : xs.idxOf b < xs.idxOf a) :
    (xs ++ ys).idxOf b < (xs ++ ys).idxOf a := by
  have inside : xs.idxOf b < xs.length := Nat.lt_of_lt_of_le earlier List.idxOf_le_length
  rw [List.idxOf_append_of_mem (List.idxOf_lt_length_iff.1 inside), List.idxOf_append]
  split <;> omega

end Lists

/-- The way from the mappings that remain to those that are placed in turn and those that are left,
none of which is ready. -/
inductive Places (known : List EntityMapping) :
    List EntityMapping → List EntityMapping → List EntityMapping → List EntityMapping → Prop where
  | stuck {placed remaining : List EntityMapping}
      (blocked : ∀ m ∈ remaining, isReady known placed m = false) :
      Places known placed remaining [] remaining
  | place {placed before after sorted rest : List EntityMapping} {m : EntityMapping}
      (skipped : ∀ x ∈ before, isReady known placed x = false)
      (ready : isReady known placed m = true)
      (others : Places known (placed ++ [m]) (before ++ after) sorted rest) :
      Places known placed (before ++ m :: after) (m :: sorted) rest

theorem placeAll_places (known : List EntityMapping) {steps : Nat}
    {placed remaining : List EntityMapping} (enough : remaining.length ≤ steps) :
    ∃ sorted rest, Places known placed remaining sorted rest ∧
      placeAll known steps placed remaining = placed ++ (sorted ++ rest) := by
  induction steps generalizing placed remaining with
  | zero =>
    obtain rfl : remaining = [] := List.eq_nil_of_length_eq_zero (Nat.le_zero.1 enough)
    exact ⟨[], [], .stuck (List.forall_mem_nil _), rfl⟩
  | succ steps ih =>
    simp only [placeAll]
    cases found : takeFirst? (isReady known placed) remaining with
    | none => exact ⟨[], remaining, .stuck (takeFirst?_eq_none.1 found), rfl⟩
    | some taken =>
      obtain ⟨m, others⟩ := taken
      obtain ⟨before, after, rfl, rfl, skipped, ready⟩ := takeFirst?_eq_some found
      have fewer : (before ++ after).length ≤ steps := by
        simp only [List.length_append, List.length_cons] at enough ⊢
        omega
      obtain ⟨sorted, rest, places, order⟩ := ih fewer
      refine ⟨m :: sorted, rest, .place skipped ready places, ?_⟩
      simp only [order, List.append_assoc, List.cons_append, List.nil_append]

namespace Places

variable {known placed remaining sorted rest : List EntityMapping}

theorem perm (places : Places known placed remaining sorted rest) :
    (sorted ++ rest).Perm remaining := by
  induction places with
  | stuck _ => exact .refl _
  | place _ _ _ ih => exact (ih.cons _).trans List.perm_middle.symm

/-- Whatever is placed is ready when its turn comes. -/
theorem ready (places : Places known placed remaining sorted rest)
    {before after : List EntityMapping} {m : EntityMapping}
    (turn : sorted = before ++ m :: after) : isReady known (placed ++ before) m = true := by
  induction places generalizing before with
  | stuck _ => simp at turn
  | place _ ready _ ih =>
    obtain ⟨rfl, same⟩ | ⟨earlier, rfl, later⟩ := List.cons_eq_append_iff.1 turn
    · obtain ⟨rfl, _⟩ := List.cons.inj same
      rwa [List.append_nil]
    · rw [List.append_cons]
      exact ih later

/-- Nothing that is left is ready. -/
theorem blocked (places : Places known placed remaining sorted rest) :
    ∀ m ∈ rest, isReady known (placed ++ sorted) m = false := by
  induction places with
  | stuck blocked => rwa [List.append_nil]
  | place _ _ _ ih => rwa [List.append_cons]

end Places

variable (m : Mapping)

theorem dependencyOrder_places : ∃ sorted rest,
    Places m.entities [] m.entities sorted rest ∧ m.dependencyOrder = sorted ++ rest :=
  placeAll_places m.entities (Nat.le_refl _)

theorem perm_dependencyOrder : m.dependencyOrder.Perm m.entities := by
  obtain ⟨sorted, rest, places, order⟩ := m.dependencyOrder_places
  exact order ▸ places.perm

@[simp] theorem mem_dependencyOrder {e : EntityMapping} :
    e ∈ m.dependencyOrder ↔ e ∈ m.entities := m.perm_dependencyOrder.mem_iff

end DataMigration.Mapping
