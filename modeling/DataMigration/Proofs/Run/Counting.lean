import DataMigration.Migration.State
import Mathlib.Algebra.Ring.Nat
import Mathlib.Data.List.ReduceOption

/-!
# Counting records on a step

A record is counted once: as succeeded, or as failed together with the problem it had. So the
counters of a step add up, and the step has one problem for each failed record and one more if it
ended as failed itself.
-/

namespace DataMigration.Step

/-- Counts a record, and notes the problem it had. -/
def count (step : Step) : Option StepError → Step
  | none => { step with processed := step.processed + 1, succeeded := step.succeeded + 1 }
  | some e =>
    { step with
      processed := step.processed + 1
      failed := step.failed + 1
      errors := step.errors ++ [e] }

/-- Counts records in their order. -/
def countAll (step : Step) (problems : List (Option StepError)) : Step := problems.foldl count step

@[simp] theorem countAll_nil (step : Step) : step.countAll [] = step := rfl

theorem countAll_append (step : Step) (ps qs : List (Option StepError)) :
    step.countAll (ps ++ qs) = (step.countAll ps).countAll qs := List.foldl_append

/-- All counters after counting. -/
theorem countAll_eq (step : Step) (problems : List (Option StepError)) :
    step.countAll problems =
      { step with
        processed := step.processed + problems.length
        succeeded := step.succeeded + problems.countP Option.isNone
        failed := step.failed + problems.countP Option.isSome
        errors := step.errors ++ problems.reduceOption } := by
  induction problems generalizing step with
  | nil => simp [List.reduceOption]
  | cons problem problems ih =>
    have counted : step.countAll (problem :: problems) = (step.count problem).countAll problems :=
      rfl
    rw [counted, ih]
    cases problem <;> simp [count, List.reduceOption, Nat.add_assoc, Nat.add_comm 1]

@[simp] theorem countAll_name (step : Step) (problems : List (Option StepError)) :
    (step.countAll problems).name = step.name := by rw [countAll_eq]

@[simp] theorem countAll_entity (step : Step) (problems : List (Option StepError)) :
    (step.countAll problems).entity = step.entity := by rw [countAll_eq]

@[simp] theorem countAll_processed (step : Step) (problems : List (Option StepError)) :
    (step.countAll problems).processed = step.processed + problems.length := by rw [countAll_eq]

@[simp] theorem countAll_succeeded (step : Step) (problems : List (Option StepError)) :
    (step.countAll problems).succeeded = step.succeeded + problems.countP Option.isNone := by
  rw [countAll_eq]

/-- The counters add up, with one problem for each failed record. -/
structure Balanced (step : Step) : Prop where
  processed : step.processed = step.succeeded + step.failed
  errors : step.errors.length = step.failed

theorem Balanced.countAll {step : Step} (h : step.Balanced) (problems : List (Option StepError)) :
    (step.countAll problems).Balanced := by
  have lengths : problems.length =
      problems.countP Option.isNone + problems.countP Option.isSome := by
    induction problems with
    | nil => rfl
    | cons problem problems ih => cases problem <;> simp [ih] <;> omega
  rw [countAll_eq]
  refine ⟨?_, ?_⟩
  · simp only [h.processed, lengths]
    omega
  · have noted : problems.reduceOption.length = problems.countP Option.isSome := by
      rw [List.reduceOption_length_eq, List.countP_eq_length_filter]
    simp [h.errors, noted]

/-- The step as it is added to a run. -/
def closed (step : Step) (outcome : Option MigrationError) (now : Calendar.Instant) : Step :=
  { step.finish (MigrationState.endStatus outcome) now with
    errors := step.errors ++ MigrationState.endErrors outcome }

/-- The counters add up, and there is one more problem than failed records if the step failed. -/
structure Accounted (step : Step) : Prop where
  processed : step.processed = step.succeeded + step.failed
  errors : step.errors.length = step.failed + if step.status = .failed then 1 else 0

/-- A balanced step is accounted for when it ends. -/
theorem Balanced.closed {step : Step} (h : step.Balanced) (outcome : Option MigrationError)
    (now : Calendar.Instant) : (step.closed outcome now).Accounted := by
  refine ⟨h.processed, ?_⟩
  have noted : (MigrationState.endErrors outcome).length =
      if MigrationState.endStatus outcome = .failed then 1 else 0 := by
    obtain _ | e := outcome
    · rfl
    · cases e <;> rfl
  simp only [Step.closed, finish, List.length_append, h.errors, noted]
  rfl

/-- The steps that are added to a run when the work of a step has ended: at a standstill none. -/
def ended (step : Step) (now : Calendar.Instant) : Option (Stop MigrationError) → List Step
  | none => [step.closed none now]
  | some (.error e) => [step.closed (some e) now]
  | some (.standstill _) => []

theorem ended_of_isOver (step : Step) (now : Calendar.Instant) {stop : Option (Stop MigrationError)}
    (back : Stop.isOver stop = true) :
    ∃ outcome, step.ended now stop = [step.closed outcome now] := by
  obtain _ | ⟨e⟩ | ⟨why⟩ := stop
  · exact ⟨none, rfl⟩
  · exact ⟨some e, rfl⟩
  · cases back

theorem exists_closed_of_mem_ended {step other : Step} {now : Calendar.Instant}
    {stop : Option (Stop MigrationError)} (h : other ∈ step.ended now stop) :
    ∃ outcome, other = step.closed outcome now := by
  obtain _ | ⟨e⟩ | ⟨why⟩ := stop
  · exact ⟨none, List.mem_singleton.1 h⟩
  · exact ⟨some e, List.mem_singleton.1 h⟩
  · cases h

end DataMigration.Step

namespace DataMigration.MigrationState

variable {σ : Type}

theorem finishStep_steps (m : Migration σ) (s : MigrationState σ) (step : Step)
    (outcome : Option MigrationError) :
    (s.finishStep m step outcome).run.steps = s.run.steps ++ [step.closed outcome m.now] := rfl

theorem endStep_steps (m : Migration σ) (s : MigrationState σ) (step : Step)
    (stop : Option (Stop MigrationError)) :
    (s.endStep m step stop).run.steps = s.run.steps ++ step.ended m.now stop := by
  obtain _ | ⟨e⟩ | ⟨why⟩ := stop
  · rfl
  · rfl
  · exact (List.append_nil _).symm

end DataMigration.MigrationState

namespace DataMigration

/-! ## Sums over steps -/

/-- The name of the step begins with a word. -/
def Step.begins (verb : String) (step : Step) : Bool := verb.toList.isPrefixOf step.name.toList

theorem Step.begins_of_name {verb : String} {step : Step} (rest : String)
    (h : step.name = verb ++ rest) : step.begins verb = true := by
  rw [Step.begins, h, String.toList_append]
  exact List.isPrefixOf_iff_prefix.2 (List.prefix_append _ _)

/-- The steps of an entity whose names begin with a word. -/
def Run.stepsOf (r : Run) (verb entity : String) : List Step :=
  r.steps.filter fun step => step.begins verb && step.entity == entity

/-- The sum of the amounts that belong to an entity. -/
def tally (entity : String) (amounts : List (String × Nat)) : Nat :=
  ((amounts.filter fun a => a.1 == entity).map Prod.snd).sum

@[simp] theorem tally_nil (entity : String) : tally entity [] = 0 := rfl

theorem tally_append (entity : String) (as bs : List (String × Nat)) :
    tally entity (as ++ bs) = tally entity as + tally entity bs := by
  simp [tally]

theorem tally_cons (entity : String) (a : String × Nat) (as : List (String × Nat)) :
    tally entity (a :: as) = (if a.1 = entity then a.2 else 0) + tally entity as := by
  by_cases own : a.1 = entity <;> simp [tally, own]

/-- Entities that come once each. -/
theorem tally_map_of_nodup {entities : List String} (once : entities.Nodup) (amount : String → Nat)
    (entity : String) :
    tally entity (entities.map fun e => (e, amount e)) =
      if entity ∈ entities then amount entity else 0 := by
  induction entities with
  | nil => rfl
  | cons e entities ih =>
    obtain ⟨new, once⟩ := List.nodup_cons.1 once
    rw [List.map_cons, tally_cons, ih once]
    by_cases own : e = entity
    · subst own
      simp [new]
    · simp [own, Ne.symm own]

/-- What steps count, by their entities. -/
def amounts (counter : Step → Nat) (steps : List Step) : List (String × Nat) :=
  steps.map fun step => (step.entity, counter step)

/-- The end of a step keeps its counters, so the step counts what it counted before. -/
theorem amounts_ended {counter : Step → Nat} {step : Step} {now : Calendar.Instant}
    (own : ∀ outcome, counter (step.closed outcome now) = counter step)
    (stop : Option (Stop MigrationError)) :
    amounts counter (step.ended now stop) =
      if Stop.isOver stop then [(step.entity, counter step)] else [] := by
  obtain _ | ⟨e⟩ | ⟨why⟩ := stop
  · exact congrArg (fun n => [(step.entity, n)]) (own none)
  · exact congrArg (fun n => [(step.entity, n)]) (own (some e))
  · rfl

theorem amounts_append (counter : Step → Nat) (steps steps' : List Step) :
    amounts counter (steps ++ steps') = amounts counter steps ++ amounts counter steps' :=
  List.map_append

theorem tally_amounts (entity : String) (counter : Step → Nat) (steps : List Step) :
    tally entity (amounts counter steps) =
      ((steps.filter fun step => step.entity == entity).map counter).sum := by
  rw [tally, amounts, List.filter_map, List.map_map]
  rfl

theorem length_filter_entity (steps : List Step) (entity : String) :
    (steps.filter fun step => step.entity == entity).length =
      (steps.map Step.entity).count entity := by
  rw [List.count_eq_countP, List.countP_map, List.countP_eq_length_filter]
  rfl

/-- Steps of one kind are all steps of that kind. -/
theorem filter_begins {verb : String} {steps : List Step}
    (named : ∀ step ∈ steps, step.begins verb = true) (entity : String) :
    (steps.filter fun step => step.begins verb && step.entity == entity) =
      steps.filter fun step => step.entity == entity :=
  List.filter_congr fun step member => by rw [named step member, Bool.true_and]

/-- A step of one kind is none of another kind. -/
theorem Step.begins_eq_false {verb verb' : String} {step : Step} (own : step.begins verb = true)
    (apart : ¬ verb.toList <+: verb'.toList) (apart' : ¬ verb'.toList <+: verb.toList) :
    step.begins verb' = false := by
  refine eq_false_of_ne_true fun other => ?_
  have own := List.isPrefixOf_iff_prefix.1 own
  have other := List.isPrefixOf_iff_prefix.1 other
  exact (List.prefix_or_prefix_of_prefix own other).elim apart apart'

/-- Steps of one kind are none of another kind. -/
theorem filter_begins_of_ne {verb verb' : String} {steps : List Step}
    (named : ∀ step ∈ steps, step.begins verb = true) (apart : ¬ verb.toList <+: verb'.toList)
    (apart' : ¬ verb'.toList <+: verb.toList) (entity : String) :
    (steps.filter fun step => step.begins verb' && step.entity == entity) = [] := by
  refine List.filter_eq_nil_iff.2 fun step member both => ?_
  rw [Step.begins_eq_false (named step member) apart apart', Bool.false_and] at both
  cases both

end DataMigration
