import DataMigration.Json.Write
import DataMigration.Path.Lookup
import DataMigration.Path.Write
import DataMigration.Record.Source

/-!
# What operators work on

An operator receives the value of its source path if there is one, its configuration, the payloads
of all records that feed the target record, and the tables of the run. It gives a value, nothing,
or an error.
-/

namespace DataMigration

/-- Why a target record or one of its fields cannot be built. -/
inductive TransformError where
  | noSourceRecords (mapping : String)
  | invalidInput (operator message : String)
  | registered (name message : String)
  | path (error : PathError)
  deriving DecidableEq, Repr

/-- The wording of a transform error. -/
def TransformError.message : TransformError → String
  | .noSourceRecords mapping => "No source records supplied for mapping '" ++ mapping ++ "'"
  | .invalidInput operator message =>
    "Transform '" ++ operator ++ "' rejected its input: " ++ message
  | .registered name message => "Custom transform '" ++ name ++ "' failed: " ++ message
  | .path error => "Cannot write target field: " ++ error.message

/-- Tables that operators may consult. -/
structure Tables where
  /-- The records of each table of `lookup`. -/
  lookup : Dict (List Value) := []
  /-- The labels of each table of `enum_map`. -/
  labels : Dict (Dict String) := []

/-- The payloads of the records that feed one target record, each with its service. -/
abbrev Payloads := List (String × Value)

namespace Payloads

/-- The payloads of records. -/
def ofRecords (records : List SourceRecord) : Payloads := records.map fun r => (r.service, r.data)

/-- The payloads without their services. -/
def values (ps : Payloads) : List Value := ps.map (·.2)

/-- The payload of a service, whatever the case of its name. -/
def service? (ps : Payloads) (name : String) : Option Value :=
  (ps.find? fun p => Text.sameIgnoringCase p.1 name).map (·.2)

/-- The value at a path in the first payload that has one. -/
def first? (ps : Payloads) (path : String) : Option Value :=
  ps.findSome? fun p => Path.lookup p.2 path

/-- The value of a source path. A first segment that names one of the services restricts the
search to its payload. -/
def resolve? (ps : Payloads) (path : String) : Option Value :=
  match Text.cut? "." path with
  | none => ps.first? path
  | some (head, rest) =>
    match ps.service? head with
    | some payload => Path.lookup payload rest
    | none => ps.first? path

end Payloads

/-- What an operator makes of its input. -/
abbrev Outcome := Except TransformError (Option Value)

/-- An operator. -/
abbrev OperatorFn := Option Value → Dict Value → Payloads → Tables → Outcome

namespace Reshape

/-- A text of the configuration. -/
def configText? (config : Dict Value) (key : String) : Option String :=
  (Dict.get? config key).bind Value.asText?

/-- A text of the configuration, by default the empty one. -/
def configText (config : Dict Value) (key : String) : String := (configText? config key).getD ""

/-- An object of the configuration. -/
def configObject? (config : Dict Value) (key : String) : Option (Dict Value) :=
  (Dict.get? config key).bind Value.asFields?

/-- A value of the configuration that is not null. -/
def configValue? (config : Dict Value) (key : String) : Option Value :=
  Value.present (Dict.get? config key)

/-- A value that labels something: neither null nor an empty text. -/
def isLabel : Value → Bool
  | .null => false
  | .str s => s != ""
  | _ => true

/-- The value found for each entry of a configuration that pairs keys with paths. -/
def gather (paths : Dict Value) (find : String → Option Value) (into : Dict Value) : Dict Value :=
  paths.foldl
    (fun out e =>
      match e.2.asText?.bind find with
      | some v => Dict.insert out e.1 v
      | none => out)
    into

end Reshape

end DataMigration
