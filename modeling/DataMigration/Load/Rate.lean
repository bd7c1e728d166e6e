import DataMigration.Decimal.Binary64
import DataMigration.Decimal.Rounding

/-!
# Rate limits

The time between two requests that a limit on requests in a second asks for.
-/

namespace DataMigration

/-- A rate that requests can keep to: it is positive, and asks for less than `2 ^ 64` seconds
between two of them. -/
def Binary64.isPace (rate : Binary64) : Bool :=
  rate.isPositive &&
    (!rate.isFinite || Nat.pow 2 (-rate.exponent).toNat < rate.mantissa * Nat.pow 2 64)

/-- The whole nanoseconds between requests at a rate. A rate that is not positive sets no limit; no
duration holds `2 ^ 64` seconds or more. -/
def requestInterval? (rate : Binary64) : Option Nat :=
  if !rate.isPositive then some 0
  else if rate.isPace then
    let seconds := Binary64.ofFloat (1.0 / rate.toFloat)
    let scaled := seconds.mantissa * 1000000000
    some (if 0 ≤ seconds.exponent then scaled * Nat.pow 2 seconds.exponent.toNat
      else Decimal.roundQuotient scaled (Nat.pow 2 (-seconds.exponent).toNat))
  else none

/-- There is an interval unless the rate sets a limit that no duration holds. -/
theorem requestInterval?_isSome_iff {rate : Binary64} :
    (requestInterval? rate).isSome = true ↔ rate.isPositive = false ∨ rate.isPace = true := by
  unfold requestInterval?
  cases rate.isPositive with
  | false => simp
  | true => cases pace : rate.isPace <;> simp

end DataMigration
