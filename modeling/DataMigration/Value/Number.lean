import DataMigration.Decimal.Layout
import DataMigration.Decimal.Read

/-!
# Numbers of a payload

A number is an integer, signed or unsigned, of 64 bits or a finite floating-point number. An
integer and a float are never the same number, so `1` and `1.0` stay apart.
-/

namespace DataMigration

/-- A number of a document. -/
inductive Number where
  | int (n : Int)
  | float (x : Binary64)
  deriving DecidableEq, Inhabited

namespace Number

/-- The integer, if there is one in the signed 64-bit range. -/
def toInt64? : Number → Option Int
  | .int n => if Decimal.isInt64 n then some n else none
  | .float _ => none

/-- The natural number, if there is one in the unsigned 64-bit range. -/
def toWord? : Number → Option Nat
  | .int n => if Decimal.isWord n then some n.toNat else none
  | .float _ => none

/-- The nearest floating-point number. -/
def toFloat : Number → Float
  | .int n => Float.ofInt n
  | .float x => x.toFloat

/-- A finite float; infinities and what is not a number are none. -/
def ofBinary64? (x : Binary64) : Option Number := if x.isFinite then some (.float x) else none

/-- A machine float as a number, if it is finite. -/
def ofFloat? (x : Float) : Option Number := ofBinary64? (Binary64.ofFloat x)

/-- The number is not an integer. -/
def isFloat : Number → Bool
  | .int _ => false
  | .float _ => true

/-- Equality as numbers of one kind; the two float zeros are equal. -/
def same : Number → Number → Bool
  | .int a, .int b => a == b
  | .float a, .float b => a.same b
  | _, _ => false

/-- The number in a given layout. -/
def write (layout : Decimal.Layout) : Number → String
  | .int n => if n < 0 then "-" ++ String.ofList (Decimal.natDigits n.natAbs)
              else String.ofList (Decimal.natDigits n.natAbs)
  | .float x => layout.write x

/-- The number as documents and messages show it. -/
def text (n : Number) : String := n.write .json

end Number

end DataMigration
