import DataMigration.Mapping.OperatorName
import DataMigration.Operator.Choice
import DataMigration.Operator.Structure
import DataMigration.Operator.Time

/-!
# The built-in operators

What each name does. Operators never fail because their value is absent; only `tier_mapping` fails
at all.
-/

namespace DataMigration.Operator

/-- The function of a built-in operator. -/
def builtin? : Operator → Option OperatorFn
  | .direct => some fun v _ _ _ => pure v
  | .toMetadata => some fun v _ _ _ => pure v
  | .prefixAdd => some fun v config _ _ => pure (Reshape.addStart v config)
  | .prefixStrip => some fun v config _ _ =>
    pure (v.map fun v => Reshape.replaceStart v (Reshape.configText config "prefix")
      (Reshape.configText config "new_prefix"))
  | .prefixStripAndAdd => some fun v config _ _ =>
    pure (v.map fun v => Reshape.replaceStart v (Reshape.configText config "strip")
      (Reshape.configText config "add"))
  | .splitName => some fun v config _ _ => pure (Reshape.splitName v config)
  | .truncate => some fun v config _ _ => pure (Reshape.truncate v config)
  | .uppercase => some fun v _ _ _ => pure (v.map fun v => .str (Text.toUpper v.text))
  | .lowercase => some fun v _ _ _ => pure (v.map fun v => .str (Text.toLower v.text))
  | .enumMap => some fun v config _ tables => pure (Reshape.enumMap v config tables)
  | .booleanToEnum => some fun v config _ _ => pure (Reshape.booleanToEnum v config)
  | .merge => some fun v config payloads _ => pure (Reshape.merge v config payloads)
  | .arrayMap => some fun v config _ _ => pure (Reshape.arrayMap v config)
  | .default => some fun v config _ _ => pure (v.or (Reshape.configValue? config "value"))
  | .coalesce => some fun v config payloads _ => pure (Reshape.coalesce v config payloads)
  | .coalesceFields => some fun v config payloads _ =>
    pure (Reshape.coalesceFields v config payloads)
  | .conditional => some fun v config payloads _ => pure (Reshape.conditional v config payloads)
  | .tierMapping => some fun v config _ _ => Reshape.tierMapping v config
  | .negateIfPositive => some fun v _ _ _ => pure (v.map Reshape.negateIfPositive)
  | .negateIfNegative => some fun v _ _ _ => pure (v.map Reshape.negateIfNegative)
  | .isoToUnix => some fun v _ _ _ => pure (v.bind Reshape.isoToUnix)
  | .unixToIso => some fun v _ _ _ => pure (v.bind Reshape.unixToIso)
  | .multiply => some fun v config _ _ => pure (v.map (Reshape.multiply config))
  | .divide => some fun v config _ _ => pure (v.map (Reshape.divide config))
  | .countryCode => some fun v _ _ _ => pure (v.map Reshape.countryCode)
  | .cleanPhone => some fun v _ _ _ => pure (v.bind Reshape.cleanPhone)
  | .addressMapping => some fun v config _ _ => pure (Reshape.addressMapping v config)
  | .lookup => some fun v config _ tables => pure (Reshape.lookupValue v config tables)
  | .compileMetadata => some fun _ config payloads _ =>
    pure (Reshape.compileMetadata config payloads)
  | .registered _ => none

end DataMigration.Operator
