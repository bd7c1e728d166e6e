import DataMigration.Decimal.Binary64

/-!
# The shortest decimal of a floating-point number

Among the decimals that read back as a given number, the ones with the fewest digits, and of those
the nearest. Every number owns the interval of reals that round to it; the ends belong to it when
its mantissa is even. For 1, 2, … 17 digits the two neighbours of the number on that decimal grid
are tested in exact arithmetic, and the first grid with a hit wins.
-/

namespace DataMigration.Decimal

/-- The decimal `digits · 10 ^ exponent`. -/
structure Scientific where
  digits : Nat
  exponent : Int
  deriving DecidableEq, Repr

/-- The interval of a positive number: `low / den`, `mid / den` and `high / den`. -/
structure Neighbourhood where
  low : Nat
  mid : Nat
  high : Nat
  den : Nat
  closed : Bool

/-- The reals that round to the finite positive number `x`. -/
def neighbourhood (x : Binary64) : Neighbourhood :=
  let m := x.mantissa
  let below := if m = Nat.pow 2 52 ∧ 1 < x.exponentField then 4 * m - 1 else 4 * m - 2
  let scale := x.exponent - 2
  if 0 ≤ scale then
    let f := Nat.pow 2 scale.toNat
    ⟨below * f, 4 * m * f, (4 * m + 2) * f, 1, m % 2 == 0⟩
  else ⟨below, 4 * m, 4 * m + 2, Nat.pow 2 (-scale).toNat, m % 2 == 0⟩

/-- `10 ^ e ≤ num / den`. -/
def powerLe (e : Int) (num den : Nat) : Bool :=
  if 0 ≤ e then decide (Nat.pow 10 e.toNat * den ≤ num)
  else decide (den ≤ num * Nat.pow 10 (-e).toNat)

/-- The exponent `p` with `10 ^ p ≤ num / den < 10 ^ (p + 1)`, guessed from the binary one. -/
def decade (num den : Nat) : Int :=
  let guess := Int.fdiv (((Nat.log2 num : Int) - (Nat.log2 den : Int)) * 1233) 4096
  ([guess + 2, guess + 1, guess, guess - 1].find? fun e => powerLe e num den).getD (guess - 2)

/-- The decimal `k · 10 ^ e` reads back. -/
def Neighbourhood.holds (n : Neighbourhood) (k : Nat) (e : Int) : Bool :=
  let value := if 0 ≤ e then k * Nat.pow 10 e.toNat * n.den else k * n.den
  let scale := if 0 ≤ e then 1 else Nat.pow 10 (-e).toNat
  let low := n.low * scale
  let high := n.high * scale
  if n.closed then decide (low ≤ value) && decide (value ≤ high)
  else decide (low < value) && decide (value < high)

/-- The nearest decimal on the grid `10 ^ e` that reads back, of two equally near the even one. -/
def Neighbourhood.onGrid (n : Neighbourhood) (e : Int) : Option Nat :=
  let num := if 0 ≤ e then n.mid else n.mid * Nat.pow 10 (-e).toNat
  let den := if 0 ≤ e then n.den * Nat.pow 10 e.toNat else n.den
  let k := num / den
  let r := num % den
  let downFirst := decide (2 * r < den) || (decide (2 * r = den) && k % 2 == 0)
  let candidates := if downFirst then [k, k + 1] else [k + 1, k]
  candidates.find? fun c => n.holds c e

/-- Moves the zeros at the end of the digits into the exponent. -/
def Scientific.normal (fuel : Nat) (s : Scientific) : Scientific :=
  match fuel with
  | 0 => s
  | fuel + 1 =>
    if s.digits ≠ 0 ∧ s.digits % 10 = 0 then
      Scientific.normal fuel ⟨s.digits / 10, s.exponent + 1⟩
    else s

/-- The shortest decimal that reads back as the finite, positive `x`. -/
def shortest (x : Binary64) : Scientific :=
  let n := neighbourhood x
  let p := decade n.mid n.den
  let hit := (List.range 17).findSome? fun (i : Nat) =>
    let e := p - (i : Int)
    (n.onGrid e).map fun k => (⟨k, e⟩ : Scientific)
  (hit.getD ⟨0, 0⟩).normal 20

end DataMigration.Decimal
