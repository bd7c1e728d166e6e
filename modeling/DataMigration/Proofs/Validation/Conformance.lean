import DataMigration.Proofs.Dict
import DataMigration.Proofs.Validation.Merging
import Mathlib.Tactic.ByContra

/-!
# Records that conform

What a schema asks for is said without the validator: which values have a type, and when a value, or
the lack of one, conforms to the contract of a field, however deeply the contract is nested. The
validator finds no error in exactly the records whose fields conform and, when it is strict, that
have no field of which the schema does not know.
-/

namespace DataMigration

theorem Value.present_eq_none_iff {v : Option Value} :
    present v = none ↔ v = none ∨ v = some .null := by
  cases v with
  | none => simp [present]
  | some w => cases w <;> simp [present, isNull]

/-- What a record has at a path is not null. -/
theorem TargetRecord.present_get? (r : TargetRecord) (path : String) :
    Value.present (r.get? path) = r.get? path := by
  cases found : r.get? path with
  | none => rfl
  | some v =>
    refine Value.present_eq_some_iff.2 ⟨rfl, ?_⟩
    unfold get? at found
    split at found
    · exact (Value.present_eq_some_iff.1 found).2
    · obtain ⟨_, _, there⟩ := Option.bind_eq_some_iff.1 found
      exact Path.lookup_ne_null there

/-- The values of a type. -/
inductive FieldType.Has : FieldType → Value → Prop
  | string (s : String) : Has .string (.str s)
  | enum (s : String) : Has .enum (.str s)
  | integer {n : Number} (whole : n.isFloat = false) : Has .integer (.num n)
  | decimal (n : Number) : Has .decimal (.num n)
  | currency (n : Number) : Has .currency (.num n)
  | timestamp (n : Number) : Has .timestamp (.num n)
  | boolean (b : Bool) : Has .boolean (.bool b)
  | date {s : String} (reads : Calendar.isDate s = true) : Has .date (.str s)
  | dateTime {s : String} (reads : Calendar.isDateTime s = true) : Has .dateTime (.str s)
  | object (fields : List (String × Value)) : Has .object (.obj fields)
  | array (items : List Value) : Has .array (.arr items)
  | jsonObject (fields : List (String × Value)) : Has .json (.obj fields)
  | jsonArray (items : List Value) : Has .json (.arr items)
  | jsonText (s : String) : Has .json (.str s)

theorem FieldType.has_iff {t : FieldType} {v : Value} : t.Has v ↔ t.admits v = true := by
  constructor
  · intro has
    cases has <;> simp_all [admits]
  · intro admitted
    cases t <;> cases v <;>
      first
      | cases admitted; done
      | exact Has.integer (by simpa [admits] using admitted)
      | exact Has.date admitted
      | exact Has.dateTime admitted
      | constructor

/-- A value, or the lack of one, conforms to the contract of a field. A null is the lack of a
value. -/
inductive FieldSchema.Conforms : FieldSchema → Option Value → Prop
  | absent {info : FieldInfo} {properties : Option (List (String × FieldSchema))}
      {items : Option FieldSchema} (optional : info.required = false) :
      Conforms (.mk info properties items) none
  | null {info : FieldInfo} {properties : Option (List (String × FieldSchema))}
      {items : Option FieldSchema} (optional : info.required = false) :
      Conforms (.mk info properties items) (some .null)
  | present {info : FieldInfo} {properties : Option (List (String × FieldSchema))}
      {items : Option FieldSchema} {v : Value} (there : v ≠ .null) (type : info.type.Has v)
      (length : ∀ max s, info.maxLength = some max → v = .str s → s.length ≤ max)
      (allowed : ∀ texts, info.allowed = some texts → texts ≠ [] → v.text ∈ texts)
      (members : ∀ ps fields, properties = some ps → v = .obj fields →
        ∀ p ∈ ps, Conforms p.2 (Dict.get? fields p.1))
      (elements : ∀ s es, items = some s → v = .arr es → ∀ e ∈ es, Conforms s (some e)) :
      Conforms (.mk info properties items) (some v)

namespace Validation

theorem acceptable_lengthFindings_iff {path : String} {info : FieldInfo} {v : Value} :
    Acceptable (lengthFindings path info v) ↔
      ∀ max s, info.maxLength = some max → v = .str s → s.length ≤ max := by
  unfold lengthFindings
  split
  · rename_i max s limit
    by_cases long : max < s.length
    · simp [limit, long, Acceptable, Finding.isError]
    · simp [limit, long, Acceptable, Nat.le_of_not_lt long]
  · rename_i other
    constructor
    · intro _ max s limit text
      exact absurd text (other max s limit)
    · exact fun _ => .nil

theorem acceptable_allowedFindings_iff {path : String} {info : FieldInfo} {v : Value} :
    Acceptable (allowedFindings path info v) ↔
      ∀ texts, info.allowed = some texts → texts ≠ [] → v.text ∈ texts := by
  simp only [allowedFindings]
  cases info.allowed with
  | none => simp [Acceptable]
  | some texts =>
    by_cases free : texts = []
    · simp [free, Acceptable]
    · by_cases listed : v.text ∈ texts
      · simp [listed, Acceptable]
      · simp [free, listed, Acceptable, Finding.isError]

mutual

/-- The validator finds no error in a field exactly if its value, or the lack of one, conforms. -/
theorem acceptable_fieldFindings_iff : ∀ (schema : FieldSchema) (path : String) (v : Option Value),
    Acceptable (fieldFindings [] schema path (Value.present v)) ↔ schema.Conforms v
  | .mk info properties items, path, v => by
    have members := acceptable_propertiesFindings_iff properties path
    have elements := acceptable_itemsFindings_iff items path
    have lacking : Acceptable (fieldFindings [] (.mk info properties items) path none) ↔
        info.required = false := by
      cases needed : info.required <;> simp [fieldFindings, needed, missing, Acceptable,
        Finding.isError]
    cases found : Value.present v with
    | some w =>
      obtain ⟨rfl, there⟩ := Value.present_eq_some_iff.1 found
      rw [fieldFindings]
      simp only [Acceptable.append_iff, acceptable_typeFindings_iff, ← FieldType.has_iff,
        acceptable_lengthFindings_iff, acceptable_allowedFindings_iff, members, elements,
        ruleFindings_nil]
      constructor
      · rintro ⟨⟨⟨⟨⟨type, length⟩, allowed⟩, members⟩, elements⟩, _⟩
        exact .present there type length allowed members elements
      · intro conforms
        cases conforms with
        | null _ => exact absurd rfl there
        | present _ type length allowed members elements =>
          exact ⟨⟨⟨⟨⟨type, length⟩, allowed⟩, members⟩, elements⟩, .nil⟩
    | none =>
      rw [lacking]
      constructor
      · intro optional
        obtain rfl | rfl := Value.present_eq_none_iff.1 found
        · exact .absent optional
        · exact .null optional
      · intro conforms
        cases conforms with
        | absent optional => exact optional
        | null optional => exact optional
        | present present _ _ _ _ _ =>
          exact absurd found (by simp [Value.present_eq_some_iff.2 ⟨rfl, present⟩])

/-- The same for the properties of an object. -/
theorem acceptable_propertiesFindings_iff :
    ∀ (properties : Option (List (String × FieldSchema))) (path : String) (v : Value),
      Acceptable (propertiesFindings [] properties path v) ↔
        ∀ ps fields, properties = some ps → v = .obj fields →
          ∀ p ∈ ps, p.2.Conforms (Dict.get? fields p.1)
  | none, _, _ => ⟨fun _ _ _ none => (nomatch none), fun _ => .nil⟩
  | some properties, path, v => by
    cases v with
    | obj members =>
      refine (acceptable_membersFindings_iff properties path members).trans ⟨?_, ?_⟩
      · rintro conform _ _ ⟨⟩ ⟨⟩
        exact conform
      · exact fun conform => conform properties members rfl rfl
    | _ => exact ⟨fun _ _ _ _ other => (nomatch other), fun _ => .nil⟩

/-- The same for declared members. -/
theorem acceptable_membersFindings_iff :
    ∀ (properties : List (String × FieldSchema)) (path : String) (members : Dict Value),
      Acceptable (membersFindings [] properties path members) ↔
        ∀ p ∈ properties, p.2.Conforms (Dict.get? members p.1)
  | [], _, _ => ⟨fun _ _ none => (nomatch none), fun _ => .nil⟩
  | (name, s) :: properties, path, members => by
    have first := acceptable_fieldFindings_iff s (path ++ "." ++ name) (Dict.get? members name)
    have others := acceptable_membersFindings_iff properties path members
    rw [membersFindings, Acceptable.append_iff, first, others, List.forall_mem_cons]

/-- The same for the elements of an array. -/
theorem acceptable_itemsFindings_iff :
    ∀ (items : Option FieldSchema) (path : String) (v : Value),
      Acceptable (itemsFindings [] items path v) ↔
        ∀ s es, items = some s → v = .arr es → ∀ e ∈ es, s.Conforms (some e)
  | none, _, _ => ⟨fun _ _ _ none => (nomatch none), fun _ => .nil⟩
  | some s, path, v => by
    cases v with
    | arr elements =>
      have each := fun e : Value × Nat =>
        acceptable_fieldFindings_iff s (path ++ "[" ++ digits e.2 ++ "]") (some e.1)
      simp only [itemsFindings, Acceptable.flatMap_iff, each]
      constructor
      · rintro conform _ _ ⟨⟩ ⟨⟩ e member
        rw [← List.zipIdx_map_fst 0 elements] at member
        obtain ⟨numbered, among, rfl⟩ := List.mem_map.1 member
        exact conform numbered among
      · intro conform e numbered
        exact conform s elements rfl rfl e.1 (List.fst_mem_of_mem_zipIdx numbered)
    | _ => exact ⟨fun _ _ _ _ other => (nomatch other), fun _ => .nil⟩

end

theorem acceptable_unknownFields_iff {s : EntitySchema} {strict : Bool} {r : TargetRecord} :
    Acceptable ((unknownFields r s).map (unknownField strict)) ↔
      (strict = true → ∀ key ∈ Dict.keys r.data,
        key ∈ Dict.keys s.fields ∨ "meta_data".toList <+: key.toList) := by
  have unknown : ∀ key, (!isFree key && !Dict.contains s.fields key) = true ↔
      ¬ (key ∈ Dict.keys s.fields ∨ "meta_data".toList <+: key.toList) := by
    intro key
    have free : isFree key = true ↔ "meta_data".toList <+: key.toList :=
      List.isPrefixOf_iff_prefix
    rw [Dict.mem_keys_iff, ← free]
    cases isFree key <;> simp
  cases strict with
  | false => simp [Acceptable, unknownField, Finding.isError]
  | true =>
    constructor
    · intro accepted _ key member
      by_contra undeclared
      have listed : key ∈ unknownFields r s :=
        List.mem_filter.2 ⟨member, (unknown key).2 undeclared⟩
      have error := accepted _ (List.mem_map_of_mem listed)
      cases error
    · intro declared f member
      obtain ⟨key, listed, rfl⟩ := List.mem_map.1 member
      obtain ⟨among, undeclared⟩ := List.mem_filter.1 listed
      exact absurd (declared rfl key among) ((unknown key).1 undeclared)

/-- A record has no finding that is an error if and only if each declared field conforms and, when
undeclared fields are errors, every field is declared or begins with `meta_data`. -/
theorem findings_without_error_iff (s : EntitySchema) (strict : Bool) (r : TargetRecord) :
    (∀ f ∈ findings [] s strict r, f.severity ≠ .error) ↔
      (∀ e ∈ s.fields, e.2.Conforms (r.get? e.1)) ∧
      (strict = true → ∀ key ∈ Dict.keys r.data,
        key ∈ Dict.keys s.fields ∨ "meta_data".toList <+: key.toList) := by
  have accepts : (∀ f ∈ findings [] s strict r, f.severity ≠ .error) ↔
      Acceptable (findings [] s strict r) := by
    simp [Acceptable, Finding.isError]
  have fields : ∀ e : String × FieldSchema,
      Acceptable (fieldFindings [] e.2 e.1 (r.get? e.1)) ↔ e.2.Conforms (r.get? e.1) := by
    intro e
    have field := acceptable_fieldFindings_iff e.2 e.1 (r.get? e.1)
    rwa [TargetRecord.present_get?] at field
  rw [accepts, findings, Acceptable.append_iff, Acceptable.flatMap_iff,
    acceptable_unknownFields_iff]
  simp only [fields]

end Validation

end DataMigration
