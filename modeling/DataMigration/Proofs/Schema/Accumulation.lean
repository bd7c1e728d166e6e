import DataMigration.Proofs.Schema.Inference
import Mathlib.Algebra.Group.Nat.Defs
import Mathlib.Data.List.Sort

/-!
# Inference as an accumulation

What the samples show is gathered path by path: which types occur, how many values there are, and
the first of them as an example. Nothing but the example depends on the order of the samples, and
samples that are given several times over change nothing at all, for the values are then counted as
often as the samples are.
-/

namespace DataMigration

/-- The field without its example. -/
def FieldSchema.withoutSample : FieldSchema → FieldSchema :=
  modifyInfo fun info => { info with sample := none }

/-- The schema without the examples of its fields. -/
def EntitySchema.withoutSamples (s : EntitySchema) : EntitySchema :=
  { s with fields := Dict.mapValues FieldSchema.withoutSample s.fields }

namespace Infer

variable {samples samples' : List Value}

/-! ## What one path gathers -/

/-- Only which types occur matters for the type that covers them. -/
theorem widen_congr {types types' : List FieldType} (occur : ∀ t, t ∈ types ↔ t ∈ types') :
    widen types = widen types' := by
  have contains : ∀ t, types.contains t = types'.contains t := fun t => by
    rw [Bool.eq_iff_iff, List.contains_iff_mem, List.contains_iff_mem, occur]
  have all : ∀ p : FieldType → Bool, types.all p = types'.all p := fun p => by
    rw [Bool.eq_iff_iff, List.all_eq_true, List.all_eq_true]
    simp only [occur]
  have isEmpty : types.isEmpty = types'.isEmpty := by
    rw [Bool.eq_iff_iff, List.isEmpty_iff, List.isEmpty_iff, List.eq_nil_iff_forall_not_mem,
      List.eq_nil_iff_forall_not_mem]
    simp only [occur]
  simp only [widen, contains, all, isEmpty]

theorem widen_map_congr {vs vs' : List Value} (occur : ∀ v, v ∈ vs ↔ v ∈ vs') :
    widen (vs.map typeOf) = widen (vs'.map typeOf) :=
  widen_congr fun t => by simp only [List.mem_map, occur]

/-- A field is told, its example aside, by the values that occur and by whether there are as many
as samples. -/
theorem withoutSample_field_congr {n n' : Nat} (path : String) {vs vs' : List Value}
    (occur : ∀ v, v ∈ vs ↔ v ∈ vs') (full : vs.length = n ↔ vs'.length = n') :
    (field n path vs).withoutSample = (field n' path vs').withoutSample := by
  have required : (vs.length == n) = (vs'.length == n') := by
    rw [Bool.eq_iff_iff, beq_iff_eq, beq_iff_eq, full]
  simp only [field, FieldSchema.withoutSample, FieldSchema.modifyInfo, widen_map_congr occur,
    required]

/-- With its example a field is told by the first value, too. -/
theorem field_congr {n n' : Nat} (path : String) {vs vs' : List Value}
    (occur : ∀ v, v ∈ vs ↔ v ∈ vs') (full : vs.length = n ↔ vs'.length = n')
    (first : vs.head? = vs'.head?) : field n path vs = field n' path vs' := by
  have required : (vs.length == n) = (vs'.length == n') := by
    rw [Bool.eq_iff_iff, beq_iff_eq, beq_iff_eq, full]
  simp only [field, widen_map_congr occur, required, first]

/-! ## The paths of a schema -/

theorem keys_byPath_congr {os os' : List Observation}
    (seen : ∀ path, path ∈ os.map Prod.fst ↔ path ∈ os'.map Prod.fst) :
    Dict.keys (byPath os) = Dict.keys (byPath os') := by
  have member : ∀ (os : List Observation) (path : String),
      path ∈ Dict.keys (byPath os) ↔ path ∈ os.map Prod.fst := by
    intro os path
    rw [Dict.mem_keys_iff, Dict.contains_eq_isSome_get?, get?_byPath]
    split <;> simp [*]
  have sorted : ∀ os : List Observation, (Dict.keys (byPath os)).Pairwise (· < ·) :=
    fun os => List.pairwise_map.2 (sorted_byPath os)
  exact (sorted os).eq_of_mem_iff (sorted os') fun path => by rw [member, member, seen]

theorem fields_entity (samples : List Value) (name : String) :
    (entity samples name).fields =
      (Dict.keys (byPath (observations samples))).map fun path => (path, inferred samples path) := by
  have values : ∀ e ∈ byPath (observations samples),
      field samples.length e.1 e.2 = inferred samples e.1 := fun e member => by
    rw [inferred, (mem_byPath_iff.1 member).2]
  rw [Dict.keys, List.map_map]
  exact List.map_congr_left fun e member => congrArg (Prod.mk e.1) (values e member)

/-! ## Samples in another order -/

theorem perm_observations (perm : samples'.Perm samples) :
    (observations samples').Perm (observations samples) :=
  perm.flatMap_right (observe "")

theorem perm_valuesAt {os os' : List Observation} (perm : os'.Perm os) (path : String) :
    (valuesAt path os').Perm (valuesAt path os) :=
  ((perm.filter _).map _).filter _

theorem withoutSample_inferred_of_perm (perm : samples'.Perm samples) (path : String) :
    (inferred samples' path).withoutSample = (inferred samples path).withoutSample := by
  have values := perm_valuesAt (perm_observations perm) path
  exact withoutSample_field_congr path (fun v => values.mem_iff)
    (by rw [values.length_eq, perm.length_eq])

theorem withoutSamples_entity_of_perm (perm : samples'.Perm samples) (name : String) :
    (entity samples' name).withoutSamples = (entity samples name).withoutSamples := by
  have keys := keys_byPath_congr fun path => ((perm_observations perm).map Prod.fst).mem_iff
  have fields : Dict.mapValues FieldSchema.withoutSample (entity samples' name).fields =
      Dict.mapValues FieldSchema.withoutSample (entity samples name).fields := by
    simp only [fields_entity, Dict.mapValues, List.map_map, Function.comp_def, keys,
      withoutSample_inferred_of_perm perm]
  exact congrArg (fun fields => { entity samples name with fields }) fields

/-! ## Samples given several times -/

section

variable {α : Type} (k : Nat) (xs : List α)

theorem mem_flatten_replicate {x : α} : x ∈ (List.replicate (k + 1) xs).flatten ↔ x ∈ xs := by
  simp [List.mem_flatten, List.mem_replicate]

theorem length_flatten_replicate :
    (List.replicate (k + 1) xs).flatten.length = (k + 1) * xs.length := by
  simp [List.length_flatten]

theorem head?_flatten_replicate : (List.replicate (k + 1) xs).flatten.head? = xs.head? := by
  cases xs with
  | nil => simp
  | cons x xs => rfl

end

theorem observations_flatten_replicate (k : Nat) (samples : List Value) :
    observations (List.replicate k samples).flatten =
      (List.replicate k (observations samples)).flatten := by
  induction k with
  | zero => rfl
  | succ k ih =>
    rw [List.replicate_succ, List.flatten_cons, observations, List.flatMap_append, ← observations,
      ← observations, ih, List.replicate_succ, List.flatten_cons]

theorem valuesAt_flatten_replicate (k : Nat) (path : String) (os : List Observation) :
    valuesAt path (List.replicate k os).flatten =
      (List.replicate k (valuesAt path os)).flatten := by
  induction k with
  | zero => rfl
  | succ k ih =>
    rw [List.replicate_succ, List.flatten_cons, valuesAt_append, ih, List.replicate_succ,
      List.flatten_cons]

theorem inferred_flatten_replicate (k : Nat) (samples : List Value) (path : String) :
    inferred (List.replicate (k + 1) samples).flatten path = inferred samples path := by
  rw [inferred, observations_flatten_replicate, valuesAt_flatten_replicate]
  refine field_congr path (fun v => mem_flatten_replicate k _) ?_ (head?_flatten_replicate k _)
  rw [length_flatten_replicate, length_flatten_replicate]
  exact Nat.mul_right_inj (Nat.succ_ne_zero k)

theorem entity_flatten_replicate (k : Nat) (samples : List Value) (name : String) :
    entity (List.replicate (k + 1) samples).flatten name = entity samples name := by
  have keys : Dict.keys (byPath (observations (List.replicate (k + 1) samples).flatten)) =
      Dict.keys (byPath (observations samples)) := by
    rw [observations_flatten_replicate]
    refine keys_byPath_congr fun path => ?_
    simp only [List.mem_map, mem_flatten_replicate]
  have fields : (entity (List.replicate (k + 1) samples).flatten name).fields =
      (entity samples name).fields := by
    simp only [fields_entity, keys, inferred_flatten_replicate]
  exact congrArg (fun fields => { entity samples name with fields }) fields

/-- Samples in any other order give the same schema but for the examples, and samples that are
given several times over give the same schema. -/
theorem entity_reordered_and_repeated (samples : List Value) (name : String) :
    (∀ samples' : List Value, samples'.Perm samples →
      (entity samples' name).withoutSamples = (entity samples name).withoutSamples) ∧
    ∀ k : Nat, entity (List.replicate (k + 1) samples).flatten name = entity samples name :=
  ⟨fun _ perm => withoutSamples_entity_of_perm perm name,
    fun k => entity_flatten_replicate k samples name⟩

/-- The two customers in the other order show another balance as the example. -/
theorem customers_reordered :
    customers.reverse.Perm customers ∧
    (entity customers.reverse "customer").withoutSamples =
      (entity customers "customer").withoutSamples ∧
    (inferred customers.reverse "balance").info.sample = some (.num (.int 3)) ∧
    (inferred customers "balance").info.sample = some (.num (.float ⟨0⟩)) := by
  have perm : customers.reverse.Perm customers := customers.reverse_perm
  exact ⟨perm, (entity_reordered_and_repeated customers "customer").1 _ perm, by decide +kernel,
    by decide +kernel⟩

end Infer

end DataMigration
