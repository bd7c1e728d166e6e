import DataMigration.Decimal.Binary64

/-!
# Reading numbers

Whole numbers with an optional sign inside the ranges of 64-bit integers, and decimals with an
optional fraction and exponent. Only ASCII digits count.
-/

namespace DataMigration.Decimal

/-- The value of an ASCII digit. -/
def digit? (c : Char) : Option Nat :=
  if 48 ≤ c.toNat ∧ c.toNat ≤ 57 then some (c.toNat - 48) else none

/-- The number that one or more ASCII digits write. -/
def nat? : List Char → Option Nat
  | [] => none
  | cs => cs.foldl (fun acc c => acc.bind fun n => (digit? c).map fun d => 10 * n + d) (some 0)

/-- The least signed 64-bit integer. -/
def int64Min : Int := -Int.pow 2 63

/-- One more than the greatest signed 64-bit integer. -/
def int64Bound : Int := Int.pow 2 63

/-- One more than the greatest unsigned 64-bit integer. -/
def wordBound : Int := Int.pow 2 64

/-- The number lies in the range of signed 64-bit integers. -/
def isInt64 (n : Int) : Bool := decide (int64Min ≤ n) && decide (n < int64Bound)

/-- The number lies in the range of unsigned 64-bit integers. -/
def isWord (n : Int) : Bool := decide (0 ≤ n) && decide (n < wordBound)

/-- A signed 64-bit integer, written with an optional sign. -/
def int64? (cs : List Char) : Option Int :=
  let value := match cs with
    | '+' :: r => (nat? r).map Int.ofNat
    | '-' :: r => (nat? r).map fun n => -Int.ofNat n
    | r => (nat? r).map Int.ofNat
  value.filter isInt64

/-- An unsigned 64-bit integer, written with an optional plus sign. -/
def word? (cs : List Char) : Option Nat :=
  let value := match cs with
    | '+' :: r => nat? r
    | r => nat? r
  value.filter fun n => isWord n

/-- The floating-point number nearest to `digits · 10 ^ exponent`. -/
def toBinary64 (negative : Bool) (digits : Nat) (exponent : Int) : Binary64 :=
  let size : Int := (Nat.toDigits 10 digits).length
  let magnitude : Float :=
    if digits = 0 ∨ size + exponent < -330 then 0.0
    else if 320 < size + exponent then 1.0 / 0.0
    else Float.ofScientific digits (decide (exponent < 0)) exponent.natAbs
  Binary64.ofFloat (if negative then -magnitude else magnitude)

/-- The exponent after an `e`, with an optional sign. -/
def exponent? : List Char → Option Int
  | '+' :: r => (nat? r).map Int.ofNat
  | '-' :: r => (nat? r).map fun n => -Int.ofNat n
  | r => (nat? r).map Int.ofNat

/-- The magnitude of a decimal: digits around an optional point, then an optional exponent. -/
def magnitude? (negative : Bool) (cs : List Char) : Option Binary64 :=
  let whole := cs.takeWhile fun c => (digit? c).isSome
  let r := cs.dropWhile fun c => (digit? c).isSome
  let (fraction, r) := match r with
    | '.' :: r => (r.takeWhile fun c => (digit? c).isSome, r.dropWhile fun c => (digit? c).isSome)
    | r => ([], r)
  match nat? (whole ++ fraction) with
  | none => none
  | some digits =>
    let exponent := match r with
      | [] => some 0
      | 'e' :: r => exponent? r
      | 'E' :: r => exponent? r
      | _ => none
    exponent.map fun e => toBinary64 negative digits (e - fraction.length)

/-- A decimal with an optional sign; also the names of infinity and of what is not a number. -/
def float? (cs : List Char) : Option Binary64 :=
  let (negative, r) := match cs with
    | '+' :: r => (false, r)
    | '-' :: r => (true, r)
    | r => (false, r)
  let name := String.ofList (r.map Char.toLower)
  if name = "inf" ∨ name = "infinity" then
    some (Binary64.ofFloat (if negative then -1.0 / 0.0 else 1.0 / 0.0))
  else if name = "nan" then some (Binary64.ofFloat (0.0 / 0.0))
  else magnitude? negative r

end DataMigration.Decimal
