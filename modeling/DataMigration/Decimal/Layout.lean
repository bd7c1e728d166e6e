import DataMigration.Decimal.Rounding
import DataMigration.Decimal.Shortest

/-!
# How floating-point numbers are written

A `Layout` says where positional notation ends and how an exponent is written. The digits are
always the shortest that read back. `fixed` writes a given number of places instead.
-/

namespace DataMigration.Decimal

/-- The choices between the notations of a floating-point number. -/
structure Layout where
  /-- Positional notation needs the decimal point right of this many places before the digits. -/
  lowPoint : Int
  /-- Positional notation needs at most this many places before the point. -/
  highPoint : Int
  /-- A positive exponent has a sign. -/
  signedExponent : Bool

/-- Documents and messages: positional from `1e-5` to below `1e16`, exponents always signed. -/
def Layout.json : Layout := ⟨-5, 16, true⟩

/-- Block documents: positional in the same range, a positive exponent has no sign. -/
def Layout.yaml : Layout := ⟨-5, 16, false⟩

/-- The digits of a natural number. -/
def natDigits (n : Nat) : List Char := Nat.toDigits 10 n

/-- A finite, positive decimal in the given layout. -/
def Layout.positive (l : Layout) (s : Scientific) : List Char :=
  let ds := natDigits s.digits
  let point : Int := ds.length + s.exponent
  if l.lowPoint < point ∧ point ≤ l.highPoint then
    if 0 ≤ s.exponent then ds ++ List.replicate s.exponent.toNat '0' ++ ['.', '0']
    else if 0 < point then ds.take point.toNat ++ '.' :: ds.drop point.toNat
    else ['0', '.'] ++ List.replicate (-point).toNat '0' ++ ds
  else
    let e := point - 1
    let mark := if e < 0 then ['e', '-'] else if l.signedExponent then ['e', '+'] else ['e']
    let tail := if ds.length ≤ 1 then [] else '.' :: ds.drop 1
    ds.take 1 ++ tail ++ mark ++ natDigits e.natAbs

/-- A finite number with the shortest digits that read back. -/
def Layout.write (l : Layout) (x : Binary64) : String :=
  let body := if x.isZero then ['0', '.', '0'] else l.positive (shortest x)
  String.ofList (if x.isNegative then '-' :: body else body)

/-- The number with exactly one place after the point; a tie goes to the even digit. -/
def onePlace (x : Binary64) : String :=
  let tenths :=
    if 0 ≤ x.exponent then x.mantissa * Nat.pow 2 x.exponent.toNat * 10
    else roundQuotient (x.mantissa * 10) (Nat.pow 2 (-x.exponent).toNat)
  let body := natDigits (tenths / 10) ++ '.' :: natDigits (tenths % 10)
  String.ofList (if x.isNegative then '-' :: body else body)

end DataMigration.Decimal
