import DataMigration.Text.Cut
import DataMigration.Value.Basic

/-!
# Unquoted scalars

A scalar without quotes has no type of its own: a reader that expects a text takes it as written,
one that expects a number or a truth value reads it as such. `Scalar.value` is its type when
nothing is expected, by the core schema of YAML 1.2: `yes` is a text, `0x10` is 16, `~` is null.
-/

namespace DataMigration.Scalar

/-- One of the spellings of null. -/
def isNullWord (s : String) : Bool := s == "null" || s == "Null" || s == "NULL" || s == "~"

/-- Null, or nothing at all. -/
def isAbsent (s : String) : Bool := s == "" || isNullWord s

/-- A truth value. -/
def bool? (s : String) : Option Bool :=
  if s = "true" ∨ s = "True" ∨ s = "TRUE" then some true
  else if s = "false" ∨ s = "False" ∨ s = "FALSE" then some false
  else none

/-- The value of a digit in the given base. -/
def digitIn? (base : Nat) (c : Char) : Option Nat :=
  let n := c.toNat
  let d := if 48 ≤ n ∧ n ≤ 57 then n - 48
    else if 97 ≤ n ∧ n ≤ 122 then n - 87
    else if 65 ≤ n ∧ n ≤ 90 then n - 55
    else base
  if d < base then some d else none

/-- One or more digits in the given base. -/
def natIn? (base : Nat) : List Char → Option Nat
  | [] => none
  | cs =>
    cs.foldl (fun acc c => acc.bind fun n => (digitIn? base c).map fun d => base * n + d) (some 0)

/-- Digits with a needless zero in front, which are a text and no number. -/
def hasLeadingZero (cs : List Char) : Bool :=
  let r := match cs with
    | '-' :: r => r
    | '+' :: r => r
    | r => r
  match r with
  | '0' :: d :: ds => (d :: ds).all fun c => (Decimal.digit? c).isSome
  | _ => false

/-- Digits behind one of the marks of base 16, 8 or 2. -/
def marked? : List Char → Option (Option Nat)
  | '0' :: 'x' :: r => some (natIn? 16 r)
  | '0' :: 'o' :: r => some (natIn? 8 r)
  | '0' :: 'b' :: r => some (natIn? 2 r)
  | _ => none

/-- A natural number: an optional plus sign and digits in base 10, or in a marked base. -/
def nat? (cs : List Char) : Option Nat :=
  let r := match cs with
    | '+' :: r => r
    | r => r
  match marked? r with
  | some (some n) => some n
  | _ => if hasLeadingZero cs then none else natIn? 10 r

/-- A negative number: a minus sign and digits in base 10, or in a marked base. -/
def negative? (cs : List Char) : Option Int :=
  match cs with
  | '-' :: r =>
    match marked? r with
    | some (some n) => some (-(n : Int))
    | _ => if hasLeadingZero cs then none else (natIn? 10 r).map fun n => -(n : Int)
  | _ => none

/-- A natural number in the unsigned 64-bit range. -/
def word? (s : String) : Option Nat := (nat? s.toList).filter fun n => Decimal.isWord n

/-- An integer of any size. -/
def int? (s : String) : Option Int :=
  match nat? s.toList with
  | some n => some n
  | none => negative? s.toList

/-- A floating-point number, or one of the spellings of infinity. -/
def float? (s : String) : Option Binary64 :=
  let cs := s.toList
  let unsigned := match cs with
    | '+' :: r => r
    | r => r
  if cs.head? = some '+' ∧ (unsigned.head? = some '+' ∨ unsigned.head? = some '-') then none
  else
    let name := String.ofList unsigned
    if name = ".inf" ∨ name = ".Inf" ∨ name = ".INF" then some (Binary64.ofFloat (1.0 / 0.0))
    else if s = "-.inf" ∨ s = "-.Inf" ∨ s = "-.INF" then some (Binary64.ofFloat (-1.0 / 0.0))
    else if s = ".nan" ∨ s = ".NaN" ∨ s = ".NAN" then some (Binary64.ofFloat (0.0 / 0.0))
    else (Decimal.float? unsigned).filter Binary64.isFinite

/-- The bound below which 128-bit integers lie. -/
def wideBound : Nat := Nat.pow 2 128

/-- The value when nothing is expected. Integers of more than 64 and up to 128 bits have none. -/
def value? (s : String) : Option Value :=
  if isAbsent s then some .null
  else
    match bool? s with
    | some b => some (.bool b)
    | none =>
      match int? s with
      | some n =>
        if Decimal.isInt64 n || Decimal.isWord n then some (.num (.int n))
        else if n.natAbs < wideBound then none
        else (float? s).map Value.ofBinary64
      | none =>
        if hasLeadingZero s.toList then some (.str s)
        else
          match float? s with
          | some x => some (Value.ofBinary64 x)
          | none => some (.str s)

end DataMigration.Scalar
