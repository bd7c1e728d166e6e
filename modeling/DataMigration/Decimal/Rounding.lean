/-!
# Rounding a quotient

The nearest whole number to a quotient of naturals; a tie goes to the even neighbour.
-/

namespace DataMigration.Decimal

/-- The whole number nearest to `num / den`, the even one of two that are equally near. -/
def roundQuotient (num den : Nat) : Nat :=
  let q := num / den
  let r := num % den
  if 2 * r < den then q
  else if den < 2 * r then q + 1
  else if q % 2 = 0 then q else q + 1

end DataMigration.Decimal
