import RecordLog.Text
import RecordLog.Number.Decimal

/-!
# The text of a double

A double is written with the fewest digits that read back as the same double,
and of the numbers with that many digits the one nearest to it.  The search tries
one digit, then two, and so on; on each decimal grid only the two neighbours of
the value can be nearest, so only they are tried.

Numbers from 10^-4 up to 10^16 are written positionally and always show a
fractional part; all others have an exponent of at least two digits.
-/

namespace RecordLog

namespace Decimal

/-- Whether a decimal reads as the double with the given units. -/
def readsAs (units : Nat) (d : Decimal) : Bool :=
  let (num, den) := d.unitsQuotient
  roundUnits num den == units

/-- Drops zeros at the end of the digits; the fuel bounds their number. -/
def stripped : (fuel : Nat) → Decimal → Decimal
  | 0, d => d
  | fuel + 1, d =>
    if d.digits ≠ 0 ∧ d.digits % 10 = 0 then stripped fuel ⟨d.digits / 10, d.exponent + 1⟩
    else d

/-- The neighbours of a magnitude among the multiples of `10 ^ exponent`, the
nearer one first and the even one of two that are equally near. -/
def neighbours (units : Nat) (exponent : Int) : List Decimal :=
  let (num, den) :=
    match exponent with
    | .ofNat e => (units, unitsPerOne * tenTo e)
    | .negSucc e => (units * tenTo (e + 1), unitsPerOne)
  let low := num / den
  let r := num % den
  if 2 * r < den || (2 * r == den && low % 2 == 0) then
    [⟨low, exponent⟩, ⟨low + 1, exponent⟩]
  else
    [⟨low + 1, exponent⟩, ⟨low, exponent⟩]

/-- The exponent `p` with `10 ^ (p - 1) ≤ value < 10 ^ p`. -/
def pointPosition (units : Nat) : Int :=
  (length (units * tenTo 400 / unitsPerOne) : Int) - 400

/-- The exact decimal value of a magnitude. -/
def exact (units : Nat) : Decimal :=
  ⟨units * Nat.pow 5 1074, -1074⟩

/-- Searches the grids with `count`, `count + 1`, … digits, `fuel` of them, and
falls back on the exact value. -/
def searchShortest (units : Nat) (point : Int) : (fuel count : Nat) → Decimal
  | 0, _ => exact units
  | fuel + 1, count =>
    match (neighbours units (point - count)).find? (readsAs units) with
    | some d => d
    | none => searchShortest units point fuel (count + 1)

/-- The shortest decimal that reads back as a magnitude. -/
def shortest (m : Magnitude) : Decimal :=
  if m.units = 0 then ⟨0, 0⟩
  else stripped 800 (searchShortest m.units (pointPosition m.units) 17 1)

end Decimal

/-- The choices that fix how a decimal is laid out. -/
structure DecimalLayout where
  /-- The least power of ten of the first digit that is written positionally. -/
  leastPositional : Int
  /-- The power of ten of the first digit from which an exponent is used. -/
  firstScientific : Int
  /-- The least number of digits of an exponent. -/
  exponentDigits : Nat

/-- The layout of all numbers written by this library. -/
def DecimalLayout.standard : DecimalLayout := ⟨-4, 16, 2⟩

namespace DecimalLayout

/-- A power of ten as an exponent. -/
def exponent (layout : DecimalLayout) (power : Int) : Text :=
  let size := Text.ofNat power.natAbs
  let padding := List.replicate (layout.exponentDigits - size.length) (CodePoint.ofChar '0')
  (if power < 0 then ("e-" : Text) else "e+") ++ padding ++ size

/-- Digits in front of a power of ten. -/
def scientific (layout : DecimalLayout) (ds : Text) (power : Int) : Text :=
  let mantissa :=
    match ds with
    | [] => []
    | [d] => [d]
    | d :: later => d :: CodePoint.ofChar '.' :: later
  mantissa ++ layout.exponent power

/-- Digits around a decimal point: `point` of them stand before it. -/
def positional (ds : Text) (point : Int) : Text :=
  if point ≤ 0 then
    "0." ++ List.replicate point.natAbs (CodePoint.ofChar '0') ++ ds
  else if ds.length ≤ point.toNat then
    ds ++ List.replicate (point.toNat - ds.length) (CodePoint.ofChar '0') ++ ".0"
  else
    ds.take point.toNat ++ "." ++ ds.drop point.toNat

/-- The text of a decimal without sign. -/
def render (layout : DecimalLayout) (d : Decimal) : Text :=
  let ds := Text.ofNat d.digits
  if d.digits = 0 then positional ds 1
  else
    let power := d.exponent + ds.length - 1
    if layout.leastPositional ≤ power ∧ power < layout.firstScientific then
      positional ds (power + 1)
    else layout.scientific ds power

end DecimalLayout

/-- The words for the doubles that have no digits. -/
structure DoubleWords where
  nan : Text
  infinity : Text

/-- A minus sign in front of a text, if wanted. -/
def Text.signed (negative : Bool) (t : Text) : Text :=
  if negative then CodePoint.ofChar '-' :: t else t

/-- The text of a double. -/
def Double.render (words : DoubleWords) : Double → Text
  | .nan => words.nan
  | .infinite s => Text.signed s words.infinity
  | .finite s m => Text.signed s (DecimalLayout.standard.render (Decimal.shortest m))

end RecordLog
