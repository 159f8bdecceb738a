/-!
# Doubles

The numbers of the IEEE 754 binary64 format, given by their exact values.  Every
finite double is a whole multiple of the smallest positive one, 2^-1074, which is
called a *unit* here, so magnitudes are natural numbers and all arithmetic below
is exact.

`roundUnits` is the one place where precision is lost: it takes the magnitude
with 53 significant bits that is nearest to a quotient, and the even one of two
that are equally near.  A magnitude past the largest finite one is infinite.
-/

namespace RecordLog

/-- A power of two. -/
def twoTo (n : Nat) : Nat := Nat.pow 2 n

/-- A power of ten. -/
def tenTo (n : Nat) : Nat := Nat.pow 10 n

/-- The number of units in one. -/
def unitsPerOne : Nat := twoTo 1074

/-- Where finite magnitudes end, in units: this is 2^1024. -/
def unitsLimit : Nat := twoTo 2098

/-- The units of a finite double: at most 53 significant bits, and below the
limit. -/
def Representable (units : Nat) : Prop :=
  units < unitsLimit ∧ units % twoTo (units.log2 - 52) = 0

instance (units : Nat) : Decidable (Representable units) :=
  inferInstanceAs (Decidable (_ ∧ _))

/-- The absolute value of a finite double. -/
structure Magnitude where
  units : Nat
  representable : Representable units
deriving DecidableEq

/-- A binary64 number.  All payloads of NaN are one value; zero has a sign. -/
inductive Double where
  | nan
  | infinite (negative : Bool)
  | finite (negative : Bool) (magnitude : Magnitude)
deriving DecidableEq

/-- The whole number nearest to a quotient, the even one of two. -/
def roundQuotient (num den : Nat) : Nat :=
  let q := num / den
  let r := num % den
  if 2 * r < den then q
  else if den < 2 * r then q + 1
  else if q % 2 = 0 then q
  else q + 1

/-- The number with at most 53 significant bits nearest to a quotient, the one
with an even last bit of two. -/
def roundUnits (num den : Nat) : Nat :=
  let step := twoTo ((num / den).log2 - 52)
  roundQuotient num (den * step) * step

namespace Double

/-- The double with the given sign and units, if these can be a finite one. -/
def ofUnits (negative : Bool) (units : Nat) : Double :=
  if h : Representable units then finite negative ⟨units, h⟩ else infinite negative

/-- The double nearest to a quotient of units. -/
def rounded (negative : Bool) (num den : Nat) : Double :=
  ofUnits negative (roundUnits num den)

/-- Positive zero. -/
def zero : Double := ofUnits false 0

/-- One. -/
def one : Double := ofUnits false unitsPerOne

/-- The double nearest to an integer; infinite when the integer is too large. -/
def ofIntRounded (n : Int) : Double :=
  rounded (n < 0) (n.natAbs * unitsPerOne) 1

/-- The double nearest to an integer, if that is finite. -/
def ofInt? (n : Int) : Option Double :=
  match ofIntRounded n with
  | finite s m => some (finite s m)
  | _ => none

/-- The sign and units of a finite double as one integer. -/
def signedUnits (negative : Bool) (m : Magnitude) : Int :=
  if negative then -m.units else m.units

/-- The sum of two doubles, rounded to the nearest.  A sum of zero is negative
only when both summands are negative zeros. -/
def add : Double → Double → Double
  | nan, _ => nan
  | _, nan => nan
  | infinite s, infinite t => if s = t then infinite s else nan
  | infinite s, finite _ _ => infinite s
  | finite _ _, infinite t => infinite t
  | finite s m, finite t n =>
    let total := signedUnits s m + signedUnits t n
    if total = 0 then ofUnits (s && t && m.units == 0) 0
    else rounded (total < 0) total.natAbs 1

/-- The integer that a finite double without a fractional part is. -/
def toInt? : Double → Option Int
  | finite s m =>
    if m.units % unitsPerOne = 0 then
      let n := m.units / unitsPerOne
      some (if s then -n else n)
    else none
  | _ => none

/-- The whole part of a finite double. -/
def truncated? : Double → Option Int
  | finite s m =>
    let n := m.units / unitsPerOne
    some (if s then -n else n)
  | _ => none

/-- Whether a double is a zero of either sign. -/
def isZero : Double → Bool
  | finite _ m => m.units == 0
  | _ => false

end Double

/-- An exact numeric value in the order of numbers: below and above all finite
ones stand the infinities, and NaN is apart. -/
inductive Quantity where
  | nan
  | below
  | units (n : Int)
  | above
deriving DecidableEq

namespace Quantity

/-- The exact value of a double. -/
def ofDouble : Double → Quantity
  | .nan => nan
  | .infinite true => below
  | .infinite false => above
  | .finite s m => units (Double.signedUnits s m)

/-- The exact value of an integer. -/
def ofInt (n : Int) : Quantity := units (n * unitsPerOne)

/-- The strict order of quantities.  NaN is less than nothing, and nothing is
less than it. -/
def less : Quantity → Quantity → Bool
  | nan, _ => false
  | _, nan => false
  | _, below => false
  | below, _ => true
  | above, _ => false
  | units _, above => true
  | units m, units n => m < n

/-- Numeric equality: NaN equals nothing. -/
def equal : Quantity → Quantity → Bool
  | nan, _ => false
  | p, q => p = q

end Quantity

end RecordLog
