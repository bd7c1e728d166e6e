import DataMigration.Registry.Basic

/-!
# Drafting entity mappings

A first entity mapping between two entities: fields whose names agree are copied. Names agree when
they are the same without case, underscores and hyphens, or are known to mean the same.
-/

namespace DataMigration.Registry

/-- A field name as it is compared with others. -/
def plainName (name : String) : String :=
  let name := Text.toLower (String.ofList (name.toList.filter fun c => c != '_' && c != '-'))
  if name = "emailaddress" then "email"
  else if name = "phonenumber" then "phone"
  else if name = "created" ∨ name = "createddate" then "createdat"
  else if name = "updated" ∨ name = "modifieddate" ∨ name = "lastmodifieddate" then "updatedat"
  else name

/-- The last field of a schema whose name agrees. -/
def agreeing? (s : EntitySchema) (name : String) : Option String :=
  s.fields.keys.reverse.find? fun k => plainName k == plainName name

/-- An entity mapping between two entities that have schemas. -/
def draft (r : Registry) (source target : EntityRef) : Except RegistryError EntityMapping :=
  match r.entitySchema? source, r.entitySchema? target with
  | none, _ => .error (.schemaNotFound source.text)
  | _, none => .error (.schemaNotFound target.text)
  | some given, some into =>
    .ok {
      name := source.service ++ "_" ++ source.entity ++ "_to_" ++ target.service ++ "_" ++
        target.entity
      source, target
      fields := into.fields.keys.filterMap fun key =>
        (agreeing? given key).map fun found =>
          { FieldMapping.copy found key with notes := "Auto-matched by name" } }

end DataMigration.Registry
