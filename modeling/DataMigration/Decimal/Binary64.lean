/-!
# Floating-point numbers as data

A binary64 number is kept as its 64 bits, so equality is decidable and tells `0.0` from `-0.0`.
Arithmetic goes through `Float`; a finite magnitude is read as `mantissa · 2 ^ exponent`.
-/

namespace DataMigration

/-- A double-precision number, given by its bits. -/
structure Binary64 where
  bits : UInt64
  deriving DecidableEq, Inhabited

namespace Binary64

/-- The number as a machine float. -/
def toFloat (x : Binary64) : Float := Float.ofBits x.bits

/-- The bits of a machine float. -/
def ofFloat (x : Float) : Binary64 := ⟨x.toBits⟩

/-- The sign bit is set. -/
def isNegative (x : Binary64) : Bool := x.bits >>> 63 == 1

/-- The biased exponent. -/
def exponentField (x : Binary64) : Nat := ((x.bits >>> 52) &&& 0x7FF).toNat

/-- The explicit bits of the mantissa. -/
def mantissaField (x : Binary64) : Nat := (x.bits &&& 0xFFFFFFFFFFFFF).toNat

/-- Neither infinite nor not a number. -/
def isFinite (x : Binary64) : Bool := x.exponentField != 0x7FF

/-- Zero of either sign. -/
def isZero (x : Binary64) : Bool := x.exponentField == 0 && x.mantissaField == 0

/-- A number greater than zero. -/
def isPositive (x : Binary64) : Bool :=
  !x.isNegative && !x.isZero && (x.isFinite || x.mantissaField == 0)

/-- The mantissa `m` of a finite magnitude `m · 2 ^ exponent`. -/
def mantissa (x : Binary64) : Nat :=
  if x.exponentField = 0 then x.mantissaField else x.mantissaField + Nat.pow 2 52

/-- The binary exponent of a finite magnitude. -/
def exponent (x : Binary64) : Int := (max x.exponentField 1 : Nat) - 1075

/-- Numerical equality: the two zeros are equal. -/
def same (x y : Binary64) : Bool := x.toFloat == y.toFloat

end Binary64

end DataMigration
