import DataMigration.Connectors
import DataMigration.Proofs.Dict
import Mathlib.Data.List.Basic

/-!
# Loading into memory and deleting from it

Every record that is handed to the memory is there afterwards, whether it was refused or not. The
ids that count as created are those of the records that were put there, and with `upsert` these
include records that only took the place of others.
-/

namespace DataMigration

namespace Memory

/-- A record of an entity with an id is there. -/
def Present (m : Memory) (entity id : String) : Prop := Dict.contains (m.entity entity) id = true

instance (m : Memory) (entity id : String) : Decidable (m.Present entity id) :=
  inferInstanceAs (Decidable (_ = true))

theorem entity_insert (m : Memory) (e e' : String) (records : Dict (Dict Value)) :
    Memory.entity (Dict.insert m e records) e' = if e' = e then records else m.entity e' := by
  unfold entity
  rw [Dict.get?_insert]
  split <;> rfl

/-- A record finds its place: it is new, or it may replace another one. -/
def Accepts (m : Memory) (upsert : Bool) (r : TargetRecord) : Prop :=
  upsert = true ∨ ¬ m.Present r.entity r.id

theorem load_of_accepts {m : Memory} {r : TargetRecord} {upsert : Bool}
    (h : m.Accepts upsert r) :
    load r upsert m = (.ok (.loaded r r.id),
      Dict.insert m r.entity (Dict.insert (m.entity r.entity) r.id r.data)) := by
  refine if_neg fun refused => ?_
  rw [Bool.and_eq_true, Bool.not_eq_true'] at refused
  obtain replaces | new := h
  · exact Bool.noConfusion (replaces.symm.trans refused.1)
  · exact new refused.2

theorem load_of_not_accepts {m : Memory} {r : TargetRecord} {upsert : Bool}
    (h : ¬ m.Accepts upsert r) :
    load r upsert m = (.ok (.refused r "Record already exists" (some "duplicate")), m) := by
  obtain ⟨keeps, there⟩ := not_or.1 h
  refine if_pos ?_
  rw [Bool.and_eq_true, Bool.not_eq_true']
  exact ⟨Bool.eq_false_iff.2 keeps, not_not.1 there⟩

theorem present_load {m : Memory} {r : TargetRecord} {upsert : Bool} {e id : String} :
    Present (load r upsert m).2 e id ↔ Present m e id ∨ (r.entity = e ∧ r.id = id) := by
  by_cases h : m.Accepts upsert r
  · rw [load_of_accepts h]
    simp only [Present, entity_insert]
    split
    · rename_i same
      rw [Dict.contains_insert, same, or_comm, eq_comm (a := id)]
      exact or_congr_right (and_iff_right rfl).symm
    · rename_i other
      exact (or_iff_left fun h => other h.1.symm).symm
  · rw [load_of_not_accepts h]
    refine (or_iff_left_of_imp ?_).symm
    rintro ⟨rfl, rfl⟩
    exact not_not.1 (not_or.1 h).2

theorem present_delete {m : Memory} {e id e' id' : String} :
    Present (delete e id m).2 e' id' ↔ Present m e' id' ∧ ¬ (e' = e ∧ id' = id) := by
  unfold delete
  split
  · simp only [Present, entity_insert]
    split
    · rename_i same
      rw [Dict.contains_erase, same]
      simp
    · rename_i other
      simp [other]
  · rename_i absent
    refine ⟨fun there => ⟨there, ?_⟩, And.left⟩
    rintro ⟨rfl, rfl⟩
    exact absent there

end Memory

section Loading

variable (service : String)

/-- The loader of a target that is a memory. -/
def Memory.target : Loader (Target Memory) := (Memory.loader service).outside

theorem loadInto_target (upsert : Bool) (acc : LoadResult × Target Memory) (r : TargetRecord) :
    ∃ o, (Memory.load r upsert acc.2.outside).1 = .ok o ∧
      (Memory.target service).loadInto upsert acc r =
        (acc.1.add o, { acc.2 with outside := (Memory.load r upsert acc.2.outside).2 }) := by
  by_cases h : acc.2.outside.Accepts upsert r
  · refine ⟨_, congrArg Prod.fst (Memory.load_of_accepts h), ?_⟩
    simp only [Loader.loadInto, Memory.target, Loader.outside, Memory.loader,
      Memory.load_of_accepts h]
  · refine ⟨_, congrArg Prod.fst (Memory.load_of_not_accepts h), ?_⟩
    simp only [Loader.loadInto, Memory.target, Loader.outside, Memory.loader,
      Memory.load_of_not_accepts h]

theorem present_loadInto {upsert : Bool} {acc : LoadResult × Target Memory} {r : TargetRecord}
    {e id : String} :
    ((Memory.target service).loadInto upsert acc r).2.outside.Present e id ↔
      acc.2.outside.Present e id ∨ (r.entity = e ∧ r.id = id) := by
  obtain ⟨o, _, loaded⟩ := loadInto_target service upsert acc r
  rw [loaded]
  exact Memory.present_load

/-- A record that finds its place counts as created, also when it replaces another one. -/
theorem created_loadInto {upsert : Bool} {acc : LoadResult × Target Memory} {r : TargetRecord}
    {id : String} :
    id ∈ ((Memory.target service).loadInto upsert acc r).1.created ↔
      id ∈ acc.1.created ∨ (r.id = id ∧ acc.2.outside.Accepts upsert r) := by
  obtain ⟨o, outcome, loaded⟩ := loadInto_target service upsert acc r
  rw [loaded]
  by_cases h : acc.2.outside.Accepts upsert r
  · rw [Memory.load_of_accepts h] at outcome
    cases outcome
    have created : (acc.1.add (.loaded r r.id)).created = acc.1.created ++ [r.id] := rfl
    rw [created, List.mem_append, List.mem_singleton, eq_comm (a := id)]
    exact or_congr_right (and_iff_left h).symm
  · rw [Memory.load_of_not_accepts h] at outcome
    cases outcome
    exact (or_iff_left fun new => h new.2).symm

/-- Records that are loaded one by one. -/
theorem loadEach_target (upsert : Bool) (rs : List TargetRecord)
    (acc : LoadResult × Target Memory) :
    (∀ e id, (rs.foldl ((Memory.target service).loadInto upsert) acc).2.outside.Present e id ↔
      acc.2.outside.Present e id ∨ ∃ r ∈ rs, r.entity = e ∧ r.id = id) ∧
    ∀ id, id ∈ (rs.foldl ((Memory.target service).loadInto upsert) acc).1.created ↔
      id ∈ acc.1.created ∨ ∃ r ∈ rs, r.id = id ∧ acc.2.outside.Accepts upsert r := by
  induction rs generalizing acc with
  | nil => simp
  | cons r rs ih =>
    obtain ⟨present, created⟩ := ih ((Memory.target service).loadInto upsert acc r)
    simp only [List.foldl_cons]
    refine ⟨fun e id => ?_, fun id => ?_⟩
    · rw [present, present_loadInto]
      simp only [List.mem_cons, exists_eq_or_imp, or_assoc]
    · rw [created, created_loadInto, or_assoc]
      simp only [List.mem_cons, exists_eq_or_imp, Memory.Accepts, present_loadInto]
      refine or_congr_right ⟨?_, ?_⟩
      · rintro (first | ⟨r', later, same, replaces | new⟩)
        · exact .inl first
        · exact .inr ⟨r', later, same, .inl replaces⟩
        · exact .inr ⟨r', later, same, .inr (not_or.1 new).1⟩
      · rintro (first | ⟨r', later, same, replaces | new⟩)
        · exact .inl first
        · exact .inr ⟨r', later, same, .inl replaces⟩
        · by_cases twin : r.entity = r'.entity ∧ r.id = r'.id
          · refine .inl ⟨twin.2.trans same, .inr ?_⟩
            rw [twin.1, twin.2]
            exact new
          · exact .inr ⟨r', later, same, .inr (not_or.2 ⟨new, twin⟩)⟩

end Loading

end DataMigration
