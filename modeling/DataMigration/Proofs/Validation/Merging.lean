import DataMigration.Proofs.Record.Merge
import DataMigration.Proofs.Validation.Located

/-!
# Validation after merging

A record that takes over metadata is held against its schema again. The contract of the metadata
speaks of their members one by one unless it lists the texts that are allowed, so where both
records are accepted, the merged record is accepted too.
-/

namespace DataMigration

/-- No finding is an error. -/
def Acceptable (fs : List Finding) : Prop := ∀ f ∈ fs, f.isError = false

namespace Acceptable

theorem nil : Acceptable [] := fun _ h => nomatch h

theorem append_iff {fs gs : List Finding} :
    Acceptable (fs ++ gs) ↔ Acceptable fs ∧ Acceptable gs := by
  simp only [Acceptable, List.mem_append, or_imp, forall_and]

theorem flatMap_iff {α : Type} {xs : List α} {g : α → List Finding} :
    Acceptable (xs.flatMap g) ↔ ∀ x ∈ xs, Acceptable (g x) := by
  simp only [Acceptable, List.mem_flatMap, forall_exists_index, and_imp]
  exact ⟨fun h x hx f hf => h f x hx hf, fun h f x hx hf => h x hx f hf⟩

end Acceptable

theorem TargetRecord.isValid_iff {r : TargetRecord} : r.isValid = true ↔ Acceptable r.findings := by
  simp [isValid, Acceptable]

namespace Validation

theorem ruleFindings_nil (path : String) (v : Value) : ruleFindings [] path v = [] := rfl

/-- Each member of metadata that were filled in comes from one of the two objects. -/
theorem acceptable_membersFindings_fillIn {rules : FieldRules}
    {properties : List (String × FieldSchema)} {path : String} {own new : Dict Value}
    (h : Acceptable (membersFindings rules properties path own))
    (h' : Acceptable (membersFindings rules properties path new)) :
    Acceptable (membersFindings rules properties path (TargetRecord.fillIn own new)) := by
  rw [membersFindings_eq_flatMap, Acceptable.flatMap_iff] at *
  intro p hp
  rw [TargetRecord.get?_fillIn]
  cases ours : Dict.get? own p.1 with
  | some v => simpa only [ours, Option.some_or] using h p hp
  | none => exact h' p hp

theorem acceptable_typeFindings_iff {path : String} {info : FieldInfo} {v : Value} :
    Acceptable (typeFindings path info v) ↔ info.type.admits v = true := by
  unfold typeFindings
  split <;> simp_all [Acceptable, Finding.isError]

/-- A field that is an object in two records and that has no list of allowed texts. -/
theorem acceptable_fieldFindings_fillIn {schema : FieldSchema} {path : String}
    {own new : Dict Value} (free : schema.info.allowed.getD [] = [])
    (h : Acceptable (fieldFindings [] schema path (some (.obj own))))
    (h' : Acceptable (fieldFindings [] schema path (some (.obj new)))) :
    Acceptable (fieldFindings [] schema path (some (.obj (TargetRecord.fillIn own new)))) := by
  obtain ⟨info, properties, items⟩ := schema
  replace free : info.allowed.getD [] = [] := free
  have object : ∀ fields, info.type.admits (.obj fields) = info.type.admits (.obj own) := by
    intro fields
    cases info.type <;> rfl
  simp only [fieldFindings, Acceptable.append_iff, ruleFindings_nil,
    acceptable_typeFindings_iff] at h h' ⊢
  obtain ⟨⟨⟨⟨⟨type, _⟩, _⟩, members⟩, _⟩, _⟩ := h
  obtain ⟨⟨⟨⟨⟨_, _⟩, _⟩, members'⟩, _⟩, _⟩ := h'
  refine ⟨⟨⟨⟨⟨?_, ?_⟩, ?_⟩, ?_⟩, ?_⟩, .nil⟩
  · rw [object, type]
  · unfold lengthFindings
    split
    · rename_i text
      cases text
    · exact .nil
  · simp only [allowedFindings, free, List.isEmpty_nil, Bool.true_or, if_true]
    exact .nil
  · cases properties with
    | none => exact .nil
    | some properties => exact acceptable_membersFindings_fillIn members members'
  · cases items <;> exact .nil

theorem isFree_metadataField : isFree TargetRecord.metadataField = true := by decide

/-- Taking something over adds no undeclared field. -/
theorem mem_unknownFields_absorb {schema : EntitySchema} {winner loser : TargetRecord}
    {key : String} (h : key ∈ unknownFields (winner.absorb loser) schema) :
    key ∈ unknownFields winner schema := by
  unfold unknownFields at *
  obtain ⟨member, undeclared⟩ := List.mem_filter.1 h
  refine List.mem_filter.2 ⟨?_, undeclared⟩
  obtain rfl | own := TargetRecord.mem_keys_absorb member
  · simp [isFree_metadataField] at undeclared
  · exact own

/-- The contract of the metadata of an entity lists no allowed texts. -/
def FreeMetadata (schema : EntitySchema) : Prop :=
  ∀ e ∈ schema.fields, e.1 = TargetRecord.metadataField → e.2.info.allowed.getD [] = []

/-- Where both records are accepted, the survivor is accepted with what it takes over. -/
theorem acceptable_findings_absorb {schema : EntitySchema} {strict : Bool}
    {winner loser : TargetRecord} (free : FreeMetadata schema)
    (h : Acceptable (findings [] schema strict winner))
    (h' : Acceptable (findings [] schema strict loser)) :
    Acceptable (findings [] schema strict (winner.absorb loser)) := by
  unfold findings at *
  rw [Acceptable.append_iff, Acceptable.flatMap_iff] at *
  refine ⟨fun e he => ?_, fun f hf => ?_⟩
  · have ours := h.1 e he
    have theirs := h'.1 e he
    obtain same | same | ⟨own, new, metadata, own', new', same⟩ :=
      TargetRecord.get?_absorb winner loser e.1
    · rw [same]
      exact ours
    · rw [same]
      exact theirs
    · rw [same]
      rw [own'] at ours
      rw [new'] at theirs
      exact acceptable_fieldFindings_fillIn (free e he metadata) ours theirs
  · obtain ⟨key, unknown, rfl⟩ := List.mem_map.1 hf
    exact h.2 _ (List.mem_map.2 ⟨key, mem_unknownFields_absorb unknown, rfl⟩)

end Validation

end DataMigration
