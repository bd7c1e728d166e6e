import DataMigration.Config.Basic
import DataMigration.Extract.Extraction
import DataMigration.Load.Loader
import DataMigration.Mapping.Document
import DataMigration.Operator.Basic
import DataMigration.Registry.Basic

/-!
# Errors of a migration

What ends a run before its time, and what a request outside of a run may be refused for.
-/

namespace DataMigration

/-- Why a migration cannot go on. -/
inductive MigrationError where
  | transition (current next : RunStatus)
  | config (error : ConfigError)
  | unconnected (service : String)
  | tooManyErrors (phase : RunStatus) (count max : Nat)
  | cancelled
  | artifact (path reason : String)
  | extraction (error : ExtractionError)
  | loader (error : LoaderError)
  | transform (error : TransformError)
  | registry (error : RegistryError)
  | mapping (error : MappingError)

namespace MigrationError

/-- The wording of a migration error. -/
def message : MigrationError → String
  | .transition current next =>
    "Invalid status transition from " ++ current.name ++ " to " ++ next.name
  | .config error => error.message
  | .unconnected service => "Failed to connect to target service " ++ service
  | .tooManyErrors phase count max =>
    "Max errors (" ++ natText max ++ ") exceeded during " ++ phase.name ++ ": " ++ natText count ++
      " errors"
  | .cancelled => "Migration cancelled"
  | .artifact path reason => "Failed to write " ++ path ++ ": " ++ reason
  | .extraction error => error.message
  | .loader error => error.message
  | .transform error => error.message
  | .registry error => error.message
  | .mapping error => error.message

/-- The error is a request to stop, and no failure. -/
def isCancel : MigrationError → Bool
  | .cancelled => true
  | _ => false

end MigrationError

end DataMigration
