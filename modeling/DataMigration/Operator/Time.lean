import DataMigration.Calendar.Read
import DataMigration.Operator.Arithmetic

/-!
# Operators on time stamps

Between seconds since 1970 and the text of an instant.
-/

namespace DataMigration.Reshape

/-- A float without its fraction, inside the range of signed 64-bit integers. -/
def truncated (x : Binary64) : Int :=
  let magnitude : Nat :=
    if 0 ≤ x.exponent then x.mantissa * Nat.pow 2 x.exponent.toNat
    else x.mantissa / Nat.pow 2 (-x.exponent).toNat
  let n : Int := if x.isNegative then -(magnitude : Int) else magnitude
  if n < Decimal.int64Min then Decimal.int64Min
  else if Decimal.int64Bound ≤ n then Decimal.int64Bound - 1
  else n

/-- The seconds since 1970 that a number is or a text names. -/
def isoToUnix : Value → Option Value
  | .num n =>
    let seconds := match n.toInt64? with
      | some i => i
      | none => truncated (Binary64.ofFloat n.toFloat)
    some (.num (.int seconds))
  | .str s => (Calendar.instant? s).map fun t => .num (.int t.seconds)
  | _ => none

/-- The instant of a number of seconds since 1970. -/
def instantOf? : Number → Option Calendar.Instant
  | .int n => Calendar.Instant.ofSeconds? n 0
  | .float x =>
    let seconds := x.toFloat.floor
    let nanos := ((x.toFloat - seconds) * 1e9).round
    Calendar.Instant.ofSeconds? (truncated (Binary64.ofFloat seconds))
      (min nanos.toUInt64.toNat 999999999)

/-- The text of the instant that a number of seconds since 1970 names. -/
def unixToIso (v : Value) : Option Value :=
  ((numberOf? v).bind instantOf?).map fun t => .str t.text

end DataMigration.Reshape
