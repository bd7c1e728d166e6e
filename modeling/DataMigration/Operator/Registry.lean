import DataMigration.Mapping.Field
import DataMigration.Operator.Builtin

/-!
# Registered operators

Operators that are added under a name. A registered operator comes before a built-in one of the
same name; the name `custom` calls the operator that the configuration names.
-/

namespace DataMigration

/-- Operators by the names under which they are registered. -/
abbrev Operators := Dict OperatorFn

/-- What the operator of a field mapping turns out to be. -/
inductive Call where
  | registered (name : String) (f : OperatorFn)
  | builtin (f : OperatorFn)
  | unknown (name : String)

namespace Operators

/-- An operator of this name can be called. -/
def has (ops : Operators) (name : String) : Bool :=
  Dict.contains ops name || (Operator.ofName name).isBuiltin

/-- A registered operator as a call. -/
def registered? (ops : Operators) (name : String) : Option Call :=
  (Dict.get? ops name).map (.registered name)

/-- The call that a field mapping makes. -/
def call (ops : Operators) (m : FieldMapping) : Call :=
  let named := ops.registered? m.operator.name
  let builtin := m.operator.builtin?.map Call.builtin
  let custom :=
    if m.operator.name = "custom" then ops.registered? (Reshape.configText m.config "function")
    else none
  ((named.or builtin).or custom).getD (.unknown m.operator.name)

end Operators

namespace Call

/-- The outcome of a call. An unknown operator copies its value. -/
def outcome (c : Call) (v : Option Value) (config : Dict Value) (payloads : Payloads)
    (tables : Tables) : Outcome :=
  match c with
  | .registered _ f => f v config payloads tables
  | .builtin f => f v config payloads tables
  | .unknown _ => pure v

/-- What is remarked about a call. -/
def remarks : Call → List String
  | .unknown name => ["Unknown transform: " ++ name ++ ", using direct copy"]
  | _ => []

/-- The name of the registered operator that is called, if it is one. -/
def registeredNames : Call → List String
  | .registered name _ => [name]
  | _ => []

end Call

end DataMigration
