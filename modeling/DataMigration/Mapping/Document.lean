import DataMigration.Files.Error
import DataMigration.Mapping.Basic
import DataMigration.Mapping.Contract
import DataMigration.Yaml.Read
import DataMigration.Yaml.Write

/-!
# Mapping documents

A mapping written as YAML or JSON. The contract is checked before the document is read, so that
all its violations are known.
-/

namespace DataMigration

/-- Why a mapping cannot be read. -/
inductive MappingError where
  | file (path : String) (reason : FileError)
  | parse
  | invalid (violations : List Violation)

/-- The wording of a mapping error. What a text breaks of the grammar is left out. -/
def MappingError.message : MappingError → String
  | .file path reason => "Failed to read mapping file " ++ path ++ ": " ++ reason.message
  | .parse => "Failed to parse mapping document: <detail>"
  | .invalid violations =>
    "Mapping document is invalid:\n" ++ "\n".intercalate (violations.map Violation.message)

namespace Mapping

/-- The mapping in a document, checked against the contract. -/
def ofCheckedTree? (t : Tree) : Except MappingError Mapping :=
  match t.value? with
  | none => .error .parse
  | some v =>
    match Contract.violations .mapping v with
    | [] =>
      match ofTree? t with
      | some m => .ok m
      | none => .error .parse
    | violations => .error (.invalid violations)

/-- The mapping that a text holds. -/
def ofDocument (text : String) : Except MappingError Mapping :=
  match Yaml.read? text with
  | some t => ofCheckedTree? t
  | none => .error .parse

/-- The mapping as a YAML document. -/
def toYaml (m : Mapping) : String := Yaml.write m.toValue

end Mapping

end DataMigration
