import DataMigration.Document.Record

/-!
# Names of operators

The operators that reshape a value. A name that is not built in belongs to an operator that is
registered under that name.
-/

namespace DataMigration

/-- An operator, by what it does or by the name under which it is registered. -/
inductive Operator where
  | direct
  | prefixAdd
  | prefixStrip
  | prefixStripAndAdd
  | splitName
  | truncate
  | uppercase
  | lowercase
  | enumMap
  | booleanToEnum
  | toMetadata
  | merge
  | arrayMap
  | default
  | coalesce
  | coalesceFields
  | conditional
  | tierMapping
  | negateIfPositive
  | negateIfNegative
  | isoToUnix
  | unixToIso
  | multiply
  | divide
  | countryCode
  | cleanPhone
  | addressMapping
  | lookup
  | compileMetadata
  | registered (name : String)
  deriving DecidableEq, Repr

namespace Operator

/-- The built-in operators and their names. -/
def builtin : List (String × Operator) := [
  ("direct", .direct), ("prefix_add", .prefixAdd), ("prefix_strip", .prefixStrip),
  ("prefix_strip_and_add", .prefixStripAndAdd), ("split_name", .splitName),
  ("truncate", .truncate), ("uppercase", .uppercase), ("lowercase", .lowercase),
  ("enum_map", .enumMap), ("boolean_to_enum", .booleanToEnum), ("to_metadata", .toMetadata),
  ("merge", .merge), ("array_map", .arrayMap), ("default", .default), ("coalesce", .coalesce),
  ("coalesce_fields", .coalesceFields), ("conditional", .conditional),
  ("tier_mapping", .tierMapping), ("negate_if_positive", .negateIfPositive),
  ("negate_if_negative", .negateIfNegative), ("iso_to_unix", .isoToUnix),
  ("unix_to_iso", .unixToIso), ("multiply", .multiply), ("divide", .divide),
  ("country_code", .countryCode), ("clean_phone", .cleanPhone),
  ("address_mapping", .addressMapping), ("lookup", .lookup),
  ("compile_metadata", .compileMetadata)]

/-- The operator with a name. -/
def ofName (s : String) : Operator := (builtin.lookup s).getD (.registered s)

/-- The name of an operator. -/
def name : Operator → String
  | .registered s => s
  | op => ((builtin.find? fun e => e.2 == op).map (·.1)).getD "direct"

/-- The operator is built in. -/
def isBuiltin : Operator → Bool
  | .registered _ => false
  | _ => true

end Operator

end DataMigration
