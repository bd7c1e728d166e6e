import DataMigration.Validation.Record

/-!
# What findings are about

A finding about a value names the path of the value or one inside it. That something is missing is
found of a path only where there is no value: inside a value the paths are longer.
-/

namespace DataMigration.Validation

theorem membersFindings_eq_flatMap (rules : FieldRules) (properties : List (String × FieldSchema))
    (path : String) (members : Dict Value) :
    membersFindings rules properties path members = properties.flatMap fun p =>
      fieldFindings rules p.2 (path ++ "." ++ p.1) (Value.present (Dict.get? members p.1)) := by
  induction properties with
  | nil => simp [membersFindings]
  | cons p properties ih =>
    obtain ⟨name, s⟩ := p
    simp [membersFindings, ih]

/-- The finding names a path, or one that goes on from it, and it is neither about a transformation
nor about an undeclared field. -/
structure Concerns (path : String) (f : Finding) : Prop where
  inside : ∃ below, f.field = path ++ below
  kind : f.kind ≠ .transform ∧ f.kind ≠ .unknownField

theorem Concerns.of_append {path more : String} {f : Finding}
    (concerns : Concerns (path ++ more) f) : Concerns path f where
  inside := concerns.inside.imp' (more ++ ·) fun _ field => by rw [field, String.append_assoc]
  kind := concerns.kind

/-- The finding is about a value that is there. -/
structure IsOwn (path : String) (f : Finding) : Prop where
  field : f.field = path
  kind : f.kind ∈ [.type, .maxLength, .enum, .validation]

theorem IsOwn.concerns {path : String} {f : Finding} (own : IsOwn path f) : Concerns path f where
  inside := ⟨"", own.field.trans String.append_empty.symm⟩
  kind := by
    have kind := own.kind
    constructor <;> intro same <;> rw [same] at kind <;> simp at kind

section

variable {rules : FieldRules} {path : String} {info : FieldInfo} {v : Value} {f : Finding}

theorem isOwn_typeFindings (h : f ∈ typeFindings path info v) : IsOwn path f := by
  unfold typeFindings at h
  split at h
  · cases h
  · rw [List.mem_singleton.1 h]
    exact ⟨rfl, by simp⟩

theorem isOwn_lengthFindings (h : f ∈ lengthFindings path info v) : IsOwn path f := by
  unfold lengthFindings at h
  split at h
  · split at h
    · rw [List.mem_singleton.1 h]
      exact ⟨rfl, by simp⟩
    · cases h
  · cases h

theorem isOwn_allowedFindings (h : f ∈ allowedFindings path info v) : IsOwn path f := by
  simp only [allowedFindings] at h
  split at h
  · cases h
  · rw [List.mem_singleton.1 h]
    exact ⟨rfl, by simp⟩

theorem isOwn_ruleFindings (h : f ∈ ruleFindings rules path v) : IsOwn path f := by
  obtain ⟨rule, _, found⟩ := List.mem_filterMap.1 h
  obtain ⟨message, _, rfl⟩ := Option.map_eq_some_iff.1 found
  exact ⟨rfl, by simp⟩

mutual

/-- The findings about a value concern its path. -/
theorem concerns_fieldFindings : ∀ (schema : FieldSchema) (path : String) (v : Option Value),
    ∀ f ∈ fieldFindings rules schema path v, Concerns path f
  | .mk info properties items, path, none, f, h => by
    simp only [fieldFindings] at h
    split at h
    · rw [List.mem_singleton.1 h]
      exact ⟨⟨"", String.append_empty.symm⟩, nofun, nofun⟩
    · cases h
  | .mk info properties items, path, some v, f, h => by
    simp only [fieldFindings, List.mem_append] at h
    obtain (((((type | length) | allowed) | members) | elements) | rule) := h
    · exact (isOwn_typeFindings type).concerns
    · exact (isOwn_lengthFindings length).concerns
    · exact (isOwn_allowedFindings allowed).concerns
    · exact concerns_propertiesFindings properties path v f members
    · exact concerns_itemsFindings items path v f elements
    · exact (isOwn_ruleFindings rule).concerns

/-- The same for the properties of an object. -/
theorem concerns_propertiesFindings :
    ∀ (properties : Option (List (String × FieldSchema))) (path : String) (v : Value),
      ∀ f ∈ propertiesFindings rules properties path v, Concerns path f
  | none, _, _, _, h => by cases h
  | some properties, path, v, f, h => by
    cases v with
    | obj members => exact concerns_membersFindings properties path members f h
    | _ => cases h

/-- The same for declared members. -/
theorem concerns_membersFindings :
    ∀ (properties : List (String × FieldSchema)) (path : String) (members : Dict Value),
      ∀ f ∈ membersFindings rules properties path members, Concerns path f
  | [], _, _, _, h => by cases h
  | (name, s) :: properties, path, members, f, h => by
    simp only [membersFindings, List.mem_append] at h
    obtain first | others := h
    · exact (concerns_fieldFindings s _ _ f first).of_append.of_append
    · exact concerns_membersFindings properties path members f others

/-- The same for the elements of an array. -/
theorem concerns_itemsFindings :
    ∀ (items : Option FieldSchema) (path : String) (v : Value),
      ∀ f ∈ itemsFindings rules items path v, Concerns path f
  | none, _, _, _, h => by cases h
  | some s, path, v, f, h => by
    cases v with
    | arr elements =>
      obtain ⟨e, _, found⟩ := List.mem_flatMap.1 h
      exact (concerns_fieldFindings s _ _ f found).of_append.of_append.of_append
    | _ => cases h

end

/-- Validating a record does not give findings of the transformation. -/
theorem kind_findings {schema : EntitySchema} {strict : Bool} {r : TargetRecord}
    (h : f ∈ findings rules schema strict r) : f.kind ≠ .transform := by
  obtain declared | unknown := List.mem_append.1 h
  · obtain ⟨e, _, found⟩ := List.mem_flatMap.1 declared
    exact (concerns_fieldFindings e.2 _ _ f found).kind.1
  · obtain ⟨key, _, rfl⟩ := List.mem_map.1 unknown
    exact fun same => nomatch same

/-! ## Missing values -/

theorem IsOwn.ne_missing (own : IsOwn path f) (path' : String) : f ≠ missing path' := by
  rintro rfl
  have kind := own.kind
  simp [missing] at kind

/-- What concerns a path that goes on is not that something is missing above. -/
theorem Concerns.ne_missing {more : String} (some : more ≠ "")
    (concerns : Concerns (path ++ more) f) : f ≠ missing path := by
  rintro rfl
  obtain ⟨below, field⟩ := concerns.inside
  have lengths : path.length = (path ++ more ++ below).length := congrArg String.length field
  rw [String.length_append, String.length_append] at lengths
  have long : more.length ≠ 0 := mt String.length_eq_zero_iff.1 some
  omega

/-- A path is reported as missing exactly when its field is required and has no value. -/
theorem missing_mem_fieldFindings_iff {schema : FieldSchema} {v : Option Value} :
    missing path ∈ fieldFindings rules schema path v ↔ schema.info.required = true ∧ v = none := by
  obtain ⟨info, properties, items⟩ := schema
  cases v with
  | none =>
    have required : (FieldSchema.mk info properties items).info.required = info.required := rfl
    simp [fieldFindings, required]
  | some v =>
    refine iff_of_false (fun h => ?_) (fun h => nomatch h.2)
    simp only [fieldFindings, List.mem_append] at h
    obtain (((((type | length) | allowed) | members) | elements) | rule) := h
    · exact (isOwn_typeFindings type).ne_missing path rfl
    · exact (isOwn_lengthFindings length).ne_missing path rfl
    · exact (isOwn_allowedFindings allowed).ne_missing path rfl
    · unfold propertiesFindings at members
      split at members
      · rw [membersFindings_eq_flatMap] at members
        obtain ⟨p, _, found⟩ := List.mem_flatMap.1 members
        have inside := concerns_fieldFindings _ _ _ _ found
        rw [String.append_assoc] at inside
        exact inside.ne_missing (by simp) rfl
      · cases members
    · unfold itemsFindings at elements
      split at elements
      · obtain ⟨e, _, found⟩ := List.mem_flatMap.1 elements
        have inside := concerns_fieldFindings _ _ _ _ found
        rw [String.append_assoc, String.append_assoc] at inside
        exact inside.ne_missing (by simp) rfl
      · cases elements
    · exact (isOwn_ruleFindings rule).ne_missing path rfl

end

end DataMigration.Validation
