import DataMigration.Path.Segment
import DataMigration.Registry.Basic
import DataMigration.Validation.Report

/-!
# Checking an entity mapping before a run

The fields that an entity mapping names have to be declared in the schemas of its two entities, and
it has to fill every required target field.
-/

namespace DataMigration.Registry

/-- The finding about an entity without a schema. -/
def noSchema (side : String) (e : EntityRef) : Finding where
  field := e.text
  message := side ++ " schema not found: " ++ e.text
  kind := .validation

/-- The remarks about conditions that nothing can be read from. -/
def conditionCautions (m : EntityMapping) : List Caution :=
  m.fields.filterMap fun f =>
    match f.condition with
    | none => none
    | some s =>
      if (Condition.parse? s).isSome then none
      else some {
        field := f.target
        message := "Condition cannot be parsed: " ++ s
        recommendation :=
          some "Use '<path> exists', '<path> == <value>' or '<path> != <value>'" }

/-- The schema declares the field of a source path, or the field that the path starts with. -/
def hasSource (s : EntitySchema) (path : String) : Bool :=
  Dict.contains s.fields path || Dict.contains s.fields (Path.root path)

/-- The schema declares the field that a target path starts with, or the path is free. -/
def hasTarget (s : EntitySchema) (path : String) : Bool :=
  Dict.contains s.fields (Path.root path) || Text.startsWith "meta_data" path

/-- The findings about the paths of a field mapping. -/
def pathFindings (source target : EntitySchema) (f : FieldMapping) : List Finding :=
  (match f.source with
    | none => []
    | some path =>
      if hasSource source path then []
      else [{
        field := path
        message := "Source field not found: " ++ path
        kind := .unknownField }])
  ++ (if hasTarget target f.target then []
    else [{
      field := f.target
      message := "Target field not found: " ++ f.target
      kind := .unknownField }])

/-- The findings about required target fields that nothing fills. -/
def unfilledFindings (target : EntitySchema) (m : EntityMapping) : List Finding :=
  (target.requiredFields.filter fun name => !(m.fields.any fun f => f.target == name)).map
    fun name => {
      field := name
      message := "Required target field has no mapping: " ++ name
      kind := .required
      suggestedFix := some ("Add a field mapping targeting '" ++ name ++ "'") }

/-- The check of an entity mapping. -/
def check (r : Registry) (m : EntityMapping) : CheckReport where
  cautions := conditionCautions m
  errors :=
    match r.entitySchema? m.source, r.entitySchema? m.target with
    | some source, some target =>
      m.fields.flatMap (pathFindings source target) ++ unfilledFindings target m
    | source, target =>
      (if source.isSome then [] else [noSchema "Source" m.source]) ++
        (if target.isSome then [] else [noSchema "Target" m.target])

end DataMigration.Registry
