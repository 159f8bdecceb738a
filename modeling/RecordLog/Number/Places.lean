import RecordLog.Number.Shortest

/-!
# Doubles with a given number of places

Where the number of places is given, a double is rounded to that many, to the even
last digit of two that are equally near.  It is written around a decimal point, or
with an exponent; the general form chooses between the two by the size of the
number, counts significant digits instead of places, and drops zeros at the end.
-/

namespace RecordLog

/-- How a double is laid out when the number of its places is given. -/
inductive PlacesForm where
  | positional
  | scientific
  | general
deriving DecidableEq

namespace PlacesForm

/-- The digits of a number, of which the last `places` stand after the point.  A
point with nothing after it is only written if `full` is set. -/
def pointed (full : Bool) (places n : Nat) : Text :=
  let ds := Text.ofNat n
  let ds := List.replicate (places + 1 - ds.length) (CodePoint.ofChar '0') ++ ds
  let whole := ds.take (ds.length - places)
  if places = 0 && !full then whole else whole ++ "." ++ ds.drop (ds.length - places)

/-- A magnitude as a whole number of `10 ^ exponent`, rounded. -/
def roundedTo (m : Magnitude) (exponent : Int) : Nat :=
  match exponent with
  | .ofNat e => roundQuotient m.units (unitsPerOne * tenTo e)
  | .negSucc e => roundQuotient (m.units * tenTo (e + 1)) unitsPerOne

/-- A magnitude with one digit before the point and `places` after it: all the
digits, and the power of ten of the first one. -/
def significant (m : Magnitude) (places : Nat) : Nat × Int :=
  if m.units = 0 then (0, 0)
  else
    let power := Decimal.pointPosition m.units - 1
    let n := roundedTo m (power - places)
    if n < tenTo (places + 1) then (n, power) else (n / 10, power + 1)

/-- A written number without the zeros, and then the point, at its end. -/
def trimmedZeros (t : Text) : Text :=
  let point := CodePoint.ofChar '.'
  if point ∈ t then
    Text.dropTrailing (· = point) (Text.dropTrailing (· = CodePoint.ofChar '0') t)
  else t

/-- The text of a magnitude.  If `full` is set, no point and no zero is left
out. -/
def render (form : PlacesForm) (full : Bool) (precision : Nat) (m : Magnitude) : Text :=
  let layout := DecimalLayout.standard
  match form with
  | positional => pointed full precision (roundedTo m (-(precision : Int)))
  | scientific =>
    let (n, power) := significant m precision
    pointed full precision n ++ layout.exponent power
  | general =>
    let places := precision - 1
    let (n, power) := significant m places
    let tidy (t : Text) : Text := if full then t else trimmedZeros t
    if layout.leastPositional ≤ power ∧ power ≤ places then
      tidy (pointed full (places - power).toNat n)
    else tidy (pointed full places n) ++ layout.exponent power

end PlacesForm

end RecordLog
