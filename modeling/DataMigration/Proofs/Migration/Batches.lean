import DataMigration.Migration.State
import Mathlib.Data.List.Infix

/-!
# Batches and work on batches

Cutting a list into batches loses nothing. Work that may be stopped between two batches is the work
on a prefix of the batches, on all of them if nothing stopped it; so what one batch keeps, the whole
loop keeps.
-/

namespace DataMigration

section Cutting

variable {α : Type}

/-- Parts of a list with `size` elements each, only the last one perhaps with fewer. -/
structure Chunks (size : Nat) (xs : List α) (parts : List (List α)) : Prop where
  whole : parts.flatten = xs
  full : ∀ part ∈ parts.dropLast, part.length = size
  last : ∀ part ∈ parts.getLast?, 0 < part.length ∧ part.length ≤ size

theorem Chunks.nil (size : Nat) : Chunks size ([] : List α) [] :=
  ⟨rfl, (fun _ none => nomatch none), (fun _ none => nomatch none)⟩

theorem Chunks.length_le {size : Nat} {xs : List α} {parts : List (List α)}
    (h : Chunks size xs parts) : ∀ part ∈ parts, part.length ≤ size := by
  intro part member
  obtain rfl | some := eq_or_ne parts []
  · cases member
  · rw [← List.dropLast_append_getLast some, List.mem_append, List.mem_singleton] at member
    obtain early | rfl := member
    · exact (h.full part early).le
    · exact (h.last _ (List.getLast?_eq_some_getLast some)).2

theorem Chunks.cons {size : Nat} {xs : List α} {parts : List (List α)}
    (h : Chunks size xs parts) (part : List α) (some : 0 < part.length) (most : part.length ≤ size)
    (full : xs ≠ [] → part.length = size) : Chunks size (part ++ xs) (part :: parts) := by
  refine ⟨by rw [List.flatten_cons, h.whole], ?_, ?_⟩
  · cases parts with
    | nil => exact fun _ none => nomatch none
    | cons next parts =>
      have nonempty : xs ≠ [] := by
        rintro rfl
        obtain ⟨last, ended⟩ : ∃ last, last ∈ (next :: parts).getLast? :=
          ⟨_, List.getLast?_eq_some_getLast (List.cons_ne_nil next parts)⟩
        have empty := List.flatten_eq_nil_iff.1 h.whole last (List.mem_of_mem_getLast? ended)
        have positive := (h.last last ended).1
        rw [empty] at positive
        exact Nat.lt_irrefl 0 positive
      rintro other (_ | ⟨_, member⟩)
      · exact full nonempty
      · exact h.full other member
  · cases parts with
    | nil =>
      rintro other ⟨⟩
      exact ⟨some, most⟩
    | cons next parts => exact h.last

/-- As many elements as a chunk can have make a full one, and the others make the other chunks. -/
theorem Chunks.full_cons {size : Nat} {xs part : List α} {parts : List (List α)}
    (h : Chunks size xs (part :: parts)) (many : size ≤ xs.length) :
    part.length = size ∧ xs.take size = part ∧ Chunks size (xs.drop size) parts := by
  have whole : part ++ parts.flatten = xs := h.whole
  have full : part.length = size := by
    cases parts with
    | nil =>
      have most := (h.last part rfl).2
      rw [List.flatten_nil, List.append_nil] at whole
      rw [← whole] at many
      omega
    | cons next parts => exact h.full part List.mem_cons_self
  subst whole full
  refine ⟨rfl, List.take_left, List.drop_left.symm, fun other member => ?_, fun other ended => ?_⟩
  · cases parts with
    | nil => cases member
    | cons next parts => exact h.full other (List.mem_cons_of_mem part member)
  · cases parts with
    | nil => cases ended
    | cons next parts => exact h.last other ended

/-- Fewer elements make one chunk. -/
theorem Chunks.short_cons {size : Nat} {xs part : List α} {parts : List (List α)}
    (h : Chunks size xs (part :: parts)) (few : xs.length < size) :
    xs = part ∧ parts = [] ∧ part ≠ [] := by
  have whole : part ++ parts.flatten = xs := h.whole
  cases parts with
  | nil =>
    rw [List.flatten_nil, List.append_nil] at whole
    exact ⟨whole.symm, rfl, List.ne_nil_of_length_pos (h.last part rfl).1⟩
  | cons next parts =>
    have full := h.full part List.mem_cons_self
    rw [← whole, List.length_append] at few
    omega

theorem batchesUpTo_chunks {size : Nat} (hs : 0 < size) :
    ∀ (fuel : Nat) (xs : List α), xs.length ≤ fuel → Chunks size xs (batchesUpTo size fuel xs) := by
  intro fuel
  induction fuel with
  | zero =>
    intro xs h
    rw [List.eq_nil_of_length_eq_zero (Nat.le_zero.1 h)]
    exact .nil size
  | succ fuel ih =>
    intro xs h
    cases xs with
    | nil => exact .nil size
    | cons x xs =>
      have short : ((x :: xs).drop size).length ≤ fuel := by
        rw [List.length_drop]
        omega
      have chunked := (ih _ short).cons ((x :: xs).take size)
        (by rw [List.length_take, List.length_cons]; omega)
        (List.length_take_le _ _)
        (fun more => by
          have longer : 0 < ((x :: xs).drop size).length := List.length_pos_of_ne_nil more
          rw [List.length_drop] at longer
          rw [List.length_take]
          omega)
      rw [List.take_append_drop] at chunked
      exact chunked

/-- The batches of a list are chunks of it. -/
theorem batches_chunks (size : Nat) (xs : List α) : Chunks (max size 1) xs (batches size xs) :=
  batchesUpTo_chunks (by omega) _ _ (Nat.le_refl _)

/-- A configuration that is accepted cuts batches of at least one record. -/
theorem Config.batchSize_pos {c : Config} (accepted : c.check = .ok ()) : 0 < c.batchSize := by
  by_contra none
  rw [check, if_pos (Nat.eq_zero_of_not_pos none)] at accepted
  cases accepted

/-- The batches of a list, one after the other, are the list. -/
theorem batches_flatten (size : Nat) (xs : List α) : (batches size xs).flatten = xs :=
  (batches_chunks size xs).whole

theorem batches_ne_nil (size : Nat) {xs : List α} (h : xs ≠ []) : batches size xs ≠ [] := by
  intro none
  rw [← batches_flatten size xs, none] at h
  exact h rfl

theorem mem_of_mem_batches {size : Nat} {xs batch : List α} (h : batch ∈ batches size xs) {x : α}
    (hx : x ∈ batch) : x ∈ xs := by
  rw [← batches_flatten size xs]
  exact List.mem_flatten.2 ⟨batch, h, hx⟩

end Cutting

section Loop

variable {α β : Type} (work : β → List α → β × Option (Stop MigrationError))

/-- Work that is stopped has done a prefix of the batches. -/
theorem overBatches_eq_foldl (xs : List (List α)) (b : β) :
    ∃ done rest, done ++ rest = xs ∧
      (overBatches work xs b).1 = done.foldl (fun b x => (work b x).1) b ∧
      ((overBatches work xs b).2 = none → rest = []) := by
  induction xs generalizing b with
  | nil => exact ⟨[], [], rfl, rfl, fun _ => rfl⟩
  | cons x xs ih =>
    simp only [overBatches]
    split
    · rename_i b' h
      obtain ⟨done, rest, rfl, state, all⟩ := ih b'
      refine ⟨x :: done, rest, rfl, ?_, all⟩
      rw [state, List.foldl_cons, h]
    · rename_i b' e h
      refine ⟨[x], xs, rfl, ?_, fun none => ?_⟩
      · rw [List.foldl_cons, h]
        rfl
      · cases none

variable {work}

/-- A relation that every element keeps is kept by a fold over all of them. -/
theorem foldl_keeps {γ : Type} {R : β → β → Prop} (refl : ∀ b, R b b)
    (trans : ∀ {a b c}, R a b → R b c → R a c) {f : β → γ → β} (xs : List γ)
    (step : ∀ b, ∀ x ∈ xs, R b (f b x)) (b : β) : R b (xs.foldl f b) := by
  induction xs generalizing b with
  | nil => exact refl b
  | cons x xs ih =>
    have first := step b x List.mem_cons_self
    exact trans first (ih (fun b y hy => step b y (List.mem_cons_of_mem x hy)) (f b x))

/-- A relation that the work on one batch keeps is kept by the work on all of them. -/
theorem overBatches_keeps {R : β → β → Prop} (refl : ∀ b, R b b)
    (trans : ∀ {a b c}, R a b → R b c → R a c) (xs : List (List α))
    (step : ∀ b, ∀ x ∈ xs, R b (work b x).1) (b : β) : R b (overBatches work xs b).1 := by
  obtain ⟨done, rest, rfl, state, _⟩ := overBatches_eq_foldl work xs b
  rw [state]
  exact foldl_keeps refl trans done (fun b x hx => step b x (List.mem_append_left rest hx)) b

/-- What comes of the work on one batch after the other, whatever is said of each of them. -/
theorem overBatches_prefix {R : List (List α) → β → β → Prop} (start : ∀ b, R [] b b)
    (next : ∀ {x xs b c d}, R [x] b c → R xs c d → R (x :: xs) b d)
    (each : ∀ b x, R [x] b (work b x).1) (xs : List (List α)) (b : β) :
    ∃ done rest, done ++ rest = xs ∧ R done b (overBatches work xs b).1 ∧
      ((overBatches work xs b).2 = none → rest = []) := by
  obtain ⟨done, rest, whole, state, all⟩ := overBatches_eq_foldl work xs b
  have folded : ∀ (done : List (List α)) b, R done b (done.foldl (fun b x => (work b x).1) b) := by
    intro done
    induction done with
    | nil => exact start
    | cons x done ih => exact fun b => next (each b x) (ih (work b x).1)
  exact ⟨done, rest, whole, state ▸ folded done b, all⟩

/-- Whatever comes of every batch comes of all of them, if it is there at the start. -/
theorem overBatches_of_each {Comes : β × Option (Stop MigrationError) → Prop}
    (each : ∀ b batch, Comes (work b batch)) (xs : List (List α)) {b : β}
    (start : Comes (b, none)) : Comes (overBatches work xs b) := by
  induction xs generalizing b with
  | nil => exact start
  | cons batch rest ih =>
    have first := each b batch
    simp only [overBatches]
    revert first
    generalize work b batch = p
    obtain ⟨c, _ | stop⟩ := p
    · exact ih
    · exact id

variable (work) in
/-- Work that no batch stops. -/
theorem overBatches_through (ready : β → Prop)
    (each : ∀ b x, ready b → ready (work b x).1 ∧ (work b x).2 = none) (xs : List (List α)) (b : β)
    (own : ready b) : ready (overBatches work xs b).1 ∧ (overBatches work xs b).2 = none := by
  induction xs generalizing b with
  | nil => exact ⟨own, rfl⟩
  | cons x xs ih =>
    have first := each b x own
    simp only [overBatches]
    revert first
    generalize work b x = p
    obtain ⟨c, _ | e⟩ := p
    · exact fun first => ih c first.1
    · exact fun first => absurd first.2 (Option.some_ne_none e)

end Loop

section Metered

variable {α : Type}

/-- What stops the work in a phase when so many records have failed. -/
def overspent (phase : RunStatus) (max count : Nat) : Option (Stop MigrationError) :=
  if max < count then some (.error (.tooManyErrors phase count max)) else none

/-- Work on a list that stops after the first element with which more than `max` is spent. What is
spent is told for everything that is done so far. -/
inductive Metered (max : Nat) (phase : α → RunStatus) (spent : List α → Nat) (all : List α) :
    List α → Option (Stop MigrationError) → Prop
  | through (within : spent all ≤ max) : Metered max phase spent all all none
  | exceeds {done : List α} {last : α} {rest : List α} (whole : done ++ last :: rest = all)
      (within : spent done ≤ max) (beyond : max < spent (done ++ [last])) :
    Metered max phase spent all (done ++ [last])
      (some (.error (.tooManyErrors (phase last) (spent (done ++ [last])) max)))

namespace Metered

variable {max : Nat} {phase : α → RunStatus} {spent : List α → Nat} {xs ys done : List α}
  {stop : Option (Stop MigrationError)}

/-- Work that goes on only if it was not stopped. -/
theorem exceeds_append {e : Stop MigrationError} (h : Metered max phase spent xs done (some e))
    (ys : List α) : Metered max phase spent (xs ++ ys) done (some e) := by
  cases h with
  | exceeds whole within beyond =>
    subst whole
    exact .exceeds (by rw [List.append_assoc]; rfl) within beyond

theorem append_left (before : List α)
    (h : Metered max phase (fun ds => spent (before ++ ds)) ys done stop) :
    Metered max phase spent (before ++ ys) (before ++ done) stop := by
  cases h with
  | through within => exact .through within
  | @exceeds done last rest whole within beyond =>
    have assoc := List.append_assoc before done [last]
    rw [← assoc] at beyond ⊢
    exact .exceeds (by rw [List.append_assoc, whole]) within beyond

theorem map {β : Type} {phase : β → RunStatus} {spent : List β → Nat} (f : α → β)
    (h : Metered max (fun x => phase (f x)) (fun ds => spent (ds.map f)) xs done stop) :
    Metered max phase spent (xs.map f) (done.map f) stop := by
  cases h with
  | through within => exact .through within
  | @exceeds done last rest whole within beyond =>
    subst whole
    simp only [List.map_append, List.map_cons, List.map_nil] at beyond ⊢
    exact .exceeds rfl within beyond

theorem congr {spent' : List α → Nat} (h : Metered max phase spent xs done stop)
    (same : ∀ ds, ds <+: xs → spent' ds = spent ds) : Metered max phase spent' xs done stop := by
  cases h with
  | through within => exact .through ((same xs (List.prefix_refl xs)).trans_le within)
  | @exceeds done last rest whole within beyond =>
    have before := same done ⟨last :: rest, whole⟩
    have after := same (done ++ [last]) ⟨rest, by rw [← whole, List.append_assoc]; rfl⟩
    rw [← after] at beyond ⊢
    exact .exceeds whole (before.trans_le within) beyond

/-- The work was done on the first elements. -/
theorem exists_rest (h : Metered max phase spent xs done stop) : ∃ rest, done ++ rest = xs := by
  cases h with
  | through _ => exact ⟨[], List.append_nil _⟩
  | @exceeds done last rest whole _ _ => exact ⟨rest, by rw [← whole, List.append_assoc]; rfl⟩

/-- What stops the work names the phase of one of its elements. -/
theorem error {e : Stop MigrationError} (h : Metered max phase spent xs done (some e)) :
    ∃ x ∈ xs, ∃ count, e = .error (.tooManyErrors (phase x) count max) := by
  cases h with
  | @exceeds done last rest whole _ _ =>
    subst whole
    exact ⟨last, List.mem_append_right _ List.mem_cons_self, _, rfl⟩

/-- The work came to no standstill. -/
theorem outcome (h : Metered max phase spent xs done stop) :
    ∃ outcome : Option MigrationError, stop = outcome.map .error := by
  cases h with
  | through _ => exact ⟨none, rfl⟩
  | exceeds _ _ _ => exact ⟨some _, rfl⟩

theorem ne_nil (h : Metered max phase spent xs done stop) (some : xs ≠ []) : done ≠ [] := by
  cases h with
  | through _ => exact some
  | exceeds _ _ _ => exact List.append_ne_nil_of_right_ne_nil _ (List.cons_ne_nil _ _)

/-- Where the work stops, by its place in the list. -/
theorem first_over (h : Metered max phase spent xs done stop) :
    (stop = none ∧ spent (xs.take xs.length) ≤ max) ∨
    ∃ n x, xs[n]? = some x ∧ done = xs.take (n + 1) ∧ spent (xs.take n) ≤ max ∧
      max < spent (xs.take (n + 1)) ∧
      stop = some (.error (.tooManyErrors (phase x) (spent (xs.take (n + 1))) max)) := by
  cases h with
  | through within => exact .inl ⟨rfl, by rw [List.take_length]; exact within⟩
  | @exceeds done last rest whole within beyond =>
    subst whole
    have before : (done ++ last :: rest).take done.length = done := List.take_left
    have after : (done ++ last :: rest).take (done.length + 1) = done ++ [last] := by
      rw [List.take_length_add_append]
      rfl
    refine .inr ⟨done.length, last, ?_, after.symm, ?_, ?_, ?_⟩
    · rw [List.getElem?_append_right (Nat.le_refl _), Nat.sub_self]
      rfl
    · rwa [before]
    · rwa [after]
    · rw [after]

/-- What was done is all, or more than allowed was spent on it. -/
theorem all_or_over (h : Metered max phase spent xs done stop) :
    (done = xs ∧ stop = none ∧ spent xs ≤ max) ∨ (stop ≠ none ∧ max < spent done) := by
  cases h with
  | through within => exact .inl ⟨rfl, rfl, within⟩
  | exceeds whole within beyond => exact .inr ⟨Option.some_ne_none _, beyond⟩

/-- Of the elements of batches, all were done, or more than allowed was spent on the first of
them. -/
theorem all_or_over_batches {size : Nat} {xs : List α} {phase : List α → RunStatus}
    {spent : List (List α) → Nat} {done : List (List α)}
    (h : Metered max phase spent (batches size xs) done stop) :
    (done.flatten = xs ∧ stop = none ∧ spent done ≤ max) ∨
    (stop ≠ none ∧ max < spent done ∧ ∃ rest, done.flatten ++ rest = xs) := by
  obtain ⟨rfl, through, within⟩ | ⟨stopped, beyond⟩ := h.all_or_over
  · exact .inl ⟨batches_flatten _ _, through, within⟩
  · obtain ⟨rest, whole⟩ := h.exists_rest
    exact .inr ⟨stopped, beyond, rest.flatten, by
      rw [← List.flatten_append, whole, batches_flatten]⟩

end Metered

/-- Work on batches that stops when a batch has taken what is spent over the limit. `R` tells what
comes of the batches that were done, and `amount` what is spent when more of them are done. -/
structure MeteredWork {β : Type} (work : β → List α → β × Option (Stop MigrationError)) (max : Nat)
    (phase : RunStatus) (ready : β → Prop) (R : List (List α) → β → β → Prop) (spent : β → Nat)
    (amount : β → List (List α) → Nat) : Prop where
  start : ∀ b, ready b → R [] b b
  ends : ∀ {xs b c}, R xs b c → ready c
  next : ∀ {x xs b c d}, R [x] b c → R xs c d → R (x :: xs) b d
  nothing : ∀ b, amount b [] = spent b
  more : ∀ {x b c}, R [x] b c → ∀ ds, amount b (x :: ds) = amount c ds
  each : ∀ b x, ready b →
    R [x] b (work b x).1 ∧ (work b x).2 = overspent phase max (spent (work b x).1)

theorem MeteredWork.metered {β : Type} {work : β → List α → β × Option (Stop MigrationError)}
    {max : Nat} {phase : RunStatus} {ready : β → Prop} {R : List (List α) → β → β → Prop}
    {spent : β → Nat} {amount : β → List (List α) → Nat}
    (h : MeteredWork work max phase ready R spent amount) (xs : List (List α)) (b : β)
    (own : ready b) (within : spent b ≤ max) :
    ∃ done, R done b (overBatches work xs b).1 ∧
      Metered max (fun _ => phase) (amount b) xs done (overBatches work xs b).2 := by
  induction xs generalizing b with
  | nil => exact ⟨[], h.start b own, .through ((h.nothing b).trans_le within)⟩
  | cons x xs ih =>
    obtain ⟨first, stop⟩ := h.each b x own
    have same := h.more first
    simp only [overBatches]
    revert first stop same
    generalize work b x = p
    obtain ⟨c, stopped⟩ := p
    intro first stop same
    simp only at first stop same
    by_cases beyond : max < spent c
    · rw [overspent, if_pos beyond] at stop
      subst stop
      have amount : amount b [x] = spent c := (same []).trans (h.nothing c)
      refine ⟨[x], first, ?_⟩
      rw [← amount] at beyond ⊢
      have start : [] ++ x :: xs = x :: xs := rfl
      exact .exceeds start ((h.nothing b).trans_le within) beyond
    · rw [overspent, if_neg beyond] at stop
      subst stop
      obtain ⟨done, further, metered⟩ := ih c (h.ends first) (Nat.le_of_not_lt beyond)
      have rest := funext same
      rw [← rest] at metered
      exact ⟨x :: done, h.next first further, metered.append_left [x]⟩

end Metered

end DataMigration
