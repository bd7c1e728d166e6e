import DataMigration.Proofs.Dict
import DataMigration.Schema.Entity

/-!
# Fields in their places

Placing gives each field without a name the one of its place. It leaves contracts of properties on
objects only and contracts of elements on arrays only, at every depth: a field that is found in a
placed schema stands at the same place before, and is placed itself.
-/

namespace DataMigration

namespace FieldSchema

/-- A step from a field to a part of its contract. -/
inductive Descent where
  | property (name : String)
  | elements

/-- The field to which steps lead. -/
def at? (s : FieldSchema) : List Descent → Option FieldSchema
  | [] => some s
  | .property name :: way => s.properties.bind fun ps => (Dict.get? ps name).bind fun p => p.at? way
  | .elements :: way => s.items.bind fun i => i.at? way

/-- The name of the place to which steps lead: the last property, or where they start. -/
def placeName (name : String) : List Descent → String
  | [] => name
  | .property name :: way => placeName name way
  | .elements :: way => placeName name way

theorem info_placed (name : String) (s : FieldSchema) :
    (s.placed name).info =
      { s.info with name := if s.info.name = "" then name else s.info.name } := by
  cases s
  rfl

theorem placedAll_eq (ps : List (String × FieldSchema)) :
    placedAll ps = ps.map fun e => (e.1, e.2.placed e.1) := by
  induction ps with
  | nil => rfl
  | cons e ps ih =>
    obtain ⟨k, s⟩ := e
    rw [placedAll, ih]
    rfl

theorem get?_placedAll (ps : Dict FieldSchema) (k : String) :
    Dict.get? (placedAll ps) k = (Dict.get? ps k).map (placed k) := by
  induction ps with
  | nil => rfl
  | cons e ps ih =>
    obtain ⟨k', s⟩ := e
    rw [placedAll, Dict.get?, Dict.get?, ih]
    split
    · rename_i same
      rw [same]
      rfl
    · rfl

theorem properties_placed (name : String) (s : FieldSchema) :
    (s.placed name).properties =
      if s.info.type = .object then s.properties.map placedAll else none := by
  obtain ⟨info, properties, items⟩ := s
  cases properties <;> rfl

theorem items_placed (name : String) (s : FieldSchema) :
    (s.placed name).items = if s.info.type = .array then s.items.map (placed name) else none := by
  obtain ⟨info, properties, items⟩ := s
  cases items <;> rfl

theorem type_of_properties_placed {name : String} {s : FieldSchema}
    (some : (s.placed name).properties ≠ none) : (s.placed name).info.type = .object := by
  rw [info_placed]
  by_contra other
  rw [properties_placed, if_neg other] at some
  exact some rfl

theorem type_of_items_placed {name : String} {s : FieldSchema}
    (some : (s.placed name).items ≠ none) : (s.placed name).info.type = .array := by
  rw [info_placed]
  by_contra other
  rw [items_placed, if_neg other] at some
  exact some rfl

/-- A field in a placed schema is the field that stood at its place, placed there. -/
theorem exists_of_at?_placed {name : String} {s f : FieldSchema} {way : List Descent}
    (found : (s.placed name).at? way = some f) :
    ∃ own, s.at? way = some own ∧ f = own.placed (placeName name way) := by
  induction way generalizing name s with
  | nil => exact ⟨s, rfl, (Option.some.inj found).symm⟩
  | cons step way ih =>
    cases step with
    | property key =>
      obtain ⟨placed, inside, found⟩ := Option.bind_eq_some_iff.1 found
      obtain ⟨p, held, found⟩ := Option.bind_eq_some_iff.1 found
      rw [properties_placed] at inside
      split at inside
      · obtain ⟨ps, own, rfl⟩ := Option.map_eq_some_iff.1 inside
        rw [get?_placedAll] at held
        obtain ⟨q, at_key, rfl⟩ := Option.map_eq_some_iff.1 held
        obtain ⟨own', reached, same⟩ := ih found
        exact ⟨own', by rw [at?, own, Option.bind_some, at_key, Option.bind_some, reached], same⟩
      · cases inside
    | elements =>
      obtain ⟨i, inside, found⟩ := Option.bind_eq_some_iff.1 found
      rw [items_placed] at inside
      split at inside
      · obtain ⟨j, own, rfl⟩ := Option.map_eq_some_iff.1 inside
        obtain ⟨own', reached, same⟩ := ih found
        exact ⟨own', by rw [at?, own, Option.bind_some, reached], same⟩
      · cases inside

end FieldSchema

namespace ServiceSchema

open FieldSchema

/-- The field to which steps lead from a field of an entity. -/
def field? (s : ServiceSchema) (entity name : String) (way : List Descent) : Option FieldSchema :=
  (Dict.get? s.entities entity).bind fun e => (Dict.get? e.fields name).bind fun f => f.at? way

theorem get?_entities_placed (s : ServiceSchema) (entity : String) :
    Dict.get? s.placed.entities entity = (Dict.get? s.entities entity).map (·.placed entity) := by
  obtain ⟨_, _, _, entities, _, _⟩ := s
  unfold placed
  induction entities with
  | nil => rfl
  | cons e entities ih =>
    obtain ⟨k, e⟩ := e
    simp only [List.map_cons, Dict.get?] at ih ⊢
    split
    · rename_i same
      rw [same]
      rfl
    · exact ih

/-- Every field of a placed schema is normal: properties belong to objects and elements to arrays,
and the field is the one that stood there, with the name of its place unless it has a name. -/
theorem normal_of_field?_placed {s : ServiceSchema} {entity name : String} {way : List Descent}
    {f : FieldSchema} (found : s.placed.field? entity name way = some f) :
    (f.properties ≠ none → f.info.type = .object) ∧ (f.items ≠ none → f.info.type = .array) ∧
      ∃ own, s.field? entity name way = some own ∧ f.info = { own.info with
        name := if own.info.name = "" then placeName name way else own.info.name } := by
  obtain ⟨e, held, found⟩ := Option.bind_eq_some_iff.1 found
  obtain ⟨g, inside, found⟩ := Option.bind_eq_some_iff.1 found
  rw [get?_entities_placed] at held
  obtain ⟨e, own, rfl⟩ := Option.map_eq_some_iff.1 held
  rw [EntitySchema.placed, get?_placedAll] at inside
  obtain ⟨g, field, rfl⟩ := Option.map_eq_some_iff.1 inside
  obtain ⟨f, reached, rfl⟩ := exists_of_at?_placed found
  refine ⟨type_of_properties_placed, type_of_items_placed, f, ?_, info_placed _ f⟩
  rw [field?, own, Option.bind_some, field, Option.bind_some, reached]

end ServiceSchema

end DataMigration
