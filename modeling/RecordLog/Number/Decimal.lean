import RecordLog.Number.Double

/-!
# Decimal scientific numbers

A finite decimal fraction as digits and a power of ten, and the double nearest
to it.  Exponents far outside the range of doubles are settled by their size
alone, so that no huge power is ever computed.
-/

namespace RecordLog

/-- The number `digits * 10 ^ exponent`. -/
structure Decimal where
  digits : Nat
  exponent : Int
deriving DecidableEq

namespace Decimal

/-- The number of decimal digits of a number, counted with fuel. -/
def lengthAux : (fuel n : Nat) → Nat
  | 0, _ => 0
  | fuel + 1, n => if n < 10 then 1 else lengthAux fuel (n / 10) + 1

/-- The number of decimal digits of a number. -/
def length (n : Nat) : Nat :=
  lengthAux (n.log2 + 1) n

/-- The units of a decimal as a quotient of two natural numbers. -/
def unitsQuotient (d : Decimal) : Nat × Nat :=
  match d.exponent with
  | .ofNat e => (d.digits * tenTo e * unitsPerOne, 1)
  | .negSucc e => (d.digits * unitsPerOne, tenTo (e + 1))

/-- The double nearest to a decimal with the given sign. -/
def toDouble (negative : Bool) (d : Decimal) : Double :=
  if d.digits = 0 then Double.ofUnits negative 0
  else if d.exponent + length d.digits > 400 then Double.infinite negative
  else if d.exponent + length d.digits < -400 then Double.ofUnits negative 0
  else
    let (num, den) := d.unitsQuotient
    Double.rounded negative num den

end Decimal

end RecordLog
