import DataMigration.Operator.Basic
import DataMigration.Text.Blank

/-!
# Operators on numbers

They read numbers and texts that write one. An integer stays an integer as long as it fits 64
bits; a result that is no finite number leaves the value as it was.
-/

namespace DataMigration.Reshape

/-- The number that a value is or writes. -/
def numberOf? : Value → Option Number
  | .num n =>
    match n.toInt64? with
    | some i => some (.int i)
    | none => some (.float (Binary64.ofFloat n.toFloat))
  | .str s =>
    let cs := Text.trimChars s.toList
    match Decimal.int64? cs with
    | some i => some (.int i)
    | none => ((Decimal.float? cs).filter Binary64.isFinite).map Number.float
  | _ => none

/-- A number as a value, if it is finite. -/
def numberValue? : Number → Option Value
  | .int n => some (.num (.int n))
  | .float x => (Number.ofFloat? x.toFloat).map Value.num

/-- Makes a positive number negative. -/
def negateIfPositive (v : Value) : Value :=
  match numberOf? v with
  | some (.int n) => .num (.int (if 0 < n then -n else n))
  | some (.float x) =>
    if 0.0 < x.toFloat then Value.ofFloat (-x.toFloat)
    else (numberValue? (.float x)).getD v
  | none => v

/-- Makes a negative number positive. -/
def negateIfNegative (v : Value) : Value :=
  match numberOf? v with
  | some (.int n) => if n = Decimal.int64Min then v else .num (.int n.natAbs)
  | some (.float x) => Value.ofFloat x.toFloat.abs
  | none => v

/-- The product of two numbers; integers that do not fit 64 bits are multiplied as floats. -/
def product (a b : Number) : Number :=
  match a, b with
  | .int m, .int n =>
    if Decimal.isInt64 (m * n) then .int (m * n)
    else .float (Binary64.ofFloat (Float.ofInt m * Float.ofInt n))
  | a, b => .float (Binary64.ofFloat (a.toFloat * b.toFloat))

/-- Multiplies by the configured factor. -/
def multiply (config : Dict Value) (v : Value) : Value :=
  let factor := ((Dict.get? config "multiplier").bind numberOf?).getD (.int 1)
  (((numberOf? v).map fun n => product n factor).bind numberValue?).getD v

/-- Divides by the configured divisor, unless that is zero. -/
def divide (config : Dict Value) (v : Value) : Value :=
  let divisor := (((Dict.get? config "divisor").bind numberOf?).map Number.toFloat).getD 1.0
  match numberOf? v with
  | some n =>
    if divisor != 0.0 then
      (numberValue? (.float (Binary64.ofFloat (n.toFloat / divisor)))).getD v
    else v
  | none => v

end DataMigration.Reshape
