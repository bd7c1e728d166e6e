import DataMigration.Json.Write
import DataMigration.Proofs.Schema.RoundTrip
import DataMigration.Proofs.Yaml.Reproduced
import DataMigration.Schema.Document

/-!
# Accepted schemas

A schema that is accepted is normal at every depth, and a text that reproduces what is written for
it is accepted again and gives the same schema.
-/

namespace DataMigration.ServiceSchema

open DataMigration.Tree FieldSchema

theorem ofDocument_eq_ok_iff {text : String} {s : ServiceSchema} :
    ofDocument text = .ok s ↔ ∃ raw, (Yaml.read? text).bind ofTree? = some raw ∧ raw.placed = s := by
  unfold ofDocument
  cases (Yaml.read? text).bind ofTree? <;> simp

/-- A text that reproduces a stable schema is accepted. -/
theorem ofDocument_of_reproduces {s : ServiceSchema} (stable : s.Stable) {text : String}
    (reproduces : Yaml.Reproduces text s.toValue) : ofDocument text = .ok s.placed := by
  obtain ⟨t, read, shown⟩ := reproduces
  refine ofDocument_eq_ok_iff.2 ⟨s, ?_, rfl⟩
  rw [read, Option.bind_some, restores_toValue stable t shown]

/-- An accepted schema is normal: properties belong to objects and elements to arrays, and each field
is the one of the document, with the name of its place unless it has a name. If only null is null in
the document and the written text reproduces the schema, that text gives the same schema. -/
theorem accepted_normal_and_restored {text : String} {s : ServiceSchema}
    (accepted : ofDocument text = .ok s) :
    (∃ raw, (Yaml.read? text).bind ofTree? = some raw ∧
      ∀ entity name way f, s.field? entity name way = some f →
        (f.properties ≠ none → f.info.type = .object) ∧ (f.items ≠ none → f.info.type = .array) ∧
        ∃ own, raw.field? entity name way = some own ∧ f.info = { own.info with
          name := if own.info.name = "" then placeName name way else own.info.name }) ∧
    ∀ t, Yaml.read? text = some t → t.Leaves IsDefinite →
      Yaml.Reproduces (Json.pretty s.toValue) s.toValue →
        ofDocument (Json.pretty s.toValue) = .ok s := by
  obtain ⟨raw, read, rfl⟩ := ofDocument_eq_ok_iff.1 accepted
  refine ⟨⟨raw, read, fun entity name way f found => normal_of_field?_placed found⟩,
    fun t same leaves reproduces => ?_⟩
  rw [same, Option.bind_some] at read
  have stable := (stable_of_ofTree? leaves read).placed
  rw [ofDocument_of_reproduces stable reproduces, placed_placed]

/-- Orders with lines of a price list, whose fields have no names of their own. -/
def orderSchema : ServiceSchema :=
  { name := "shop"
    entities := [("order", { fields := [
      ("lines", .mk { type := .array } none (some (.mk { type := .object }
        (some [("sku", .mk { required := true } none none)]) none)))] })] }

theorem stable_orderSchema : orderSchema.Stable := by
  have alone : ∀ (k : String) (f : FieldSchema), Dict.Sorted [(k, f)] := fun k f =>
    List.pairwise_singleton _ _
  have sku : (FieldSchema.mk { required := true } none none).Stable :=
    .mk ⟨nofun, nofun, nofun⟩ nofun nofun nofun
  have line : (FieldSchema.mk { type := .object }
      (some [("sku", .mk { required := true } none none)]) none).Stable := by
    refine .mk ⟨nofun, nofun, nofun⟩ ?_ ?_ nofun
    · rintro _ ⟨⟩
      exact alone _ _
    · rintro _ ⟨⟩
      exact List.forall_mem_singleton.2 sku
  refine ⟨List.pairwise_singleton _ _, List.forall_mem_singleton.2
    ⟨alone _ _, List.forall_mem_singleton.2 (.mk ⟨nofun, nofun, nofun⟩ nofun nofun ?_)⟩⟩
  rintro _ ⟨⟩
  exact line

theorem orderSchema_restored :
    ofDocument (Json.compact orderSchema.toValue) = .ok orderSchema.placed ∧
      ofDocument (Json.pretty orderSchema.placed.toValue) = .ok orderSchema.placed := by
  have given : Yaml.charsReproduce (Json.compactChars orderSchema.toValue)
      orderSchema.toValue = true := by decide +kernel
  have again : Yaml.charsReproduce (Json.prettyChars 0 orderSchema.placed.toValue)
      orderSchema.placed.toValue = true := by decide +kernel
  have reproduces : Yaml.Reproduces (Json.compact orderSchema.toValue) orderSchema.toValue :=
    Yaml.reproduces_ofList_iff.2 given
  have accepted := ofDocument_of_reproduces stable_orderSchema reproduces
  obtain ⟨t, read, shown⟩ := reproduces
  exact ⟨accepted, (accepted_normal_and_restored accepted).2 t read (leaves_of_shows shown)
    (Yaml.reproduces_ofList_iff.2 again)⟩

/-- A schema whose description is a control character. -/
def deletedSchema : ServiceSchema := { name := "s", description := "\x7f" }

/-- A document may name the control character by its code, the written document has it as it is,
and that text cannot be read. -/
theorem deletedSchema_not_restored :
    ofDocument "\x7b\"name\":\"s\",\"description\":\"\\u007f\",\"entities\":\x7b\x7d\x7d" =
        .ok deletedSchema ∧
      ofDocument (Json.pretty deletedSchema.toValue) = .error .parse := by
  have shown : ((Yaml.read?
      "\x7b\"name\":\"s\",\"description\":\"\\u007f\",\"entities\":\x7b\x7d\x7d").any
        fun t => t.shows deletedSchema.toValue) = true := by decide +kernel
  have refused : (Yaml.readChars? (Json.prettyChars 0 deletedSchema.toValue)).isNone = true := by
    decide +kernel
  constructor
  · exact ofDocument_of_reproduces (s := deletedSchema)
      ⟨List.Pairwise.nil, List.forall_mem_nil _⟩ ((Option.any_eq_true _ _).1 shown)
  · rw [ofDocument, Json.pretty, Yaml.read?_ofList, Option.isNone_iff_eq_none.1 refused]
    rfl

end DataMigration.ServiceSchema
