import RecordLog.Text.Blank
import RecordLog.Text.Digit
import RecordLog.Number.Decimal

/-!
# Numerals

Numbers spelled in text, with the decimal digits of any script.  An integer may
have a sign and single underscores between its digits, and may stand between
blanks; the information separators U+001C to U+001F are no blanks here.  No
integer is read from more than 4300 digits.
-/

namespace RecordLog.Numeral

/-- The greatest number of digits an integer is read from. -/
def digitLimit : Nat := 4300

/-- Whether a code point may surround a numeral. -/
def isSurround (c : CodePoint) : Bool :=
  Text.isBlank c && !(0x1C ≤ c.val && c.val ≤ 0x1F)

/-- A text without the blanks that may surround a numeral. -/
def unsurrounded (t : Text) : Text :=
  Text.dropTrailing isSurround (t.dropWhile isSurround)

/-- A minus sign, and what follows it. -/
def cutMinus : Text → Bool × Text
  | [] => (false, [])
  | c :: t => if c = CodePoint.ofChar '-' then (true, t) else (false, c :: t)

/-- A sign, and what follows it. -/
def cutSign : Text → Bool × Text
  | [] => (false, [])
  | c :: t => if c = CodePoint.ofChar '+' then (false, t) else cutMinus (c :: t)

/-- The values of a run of digits that makes up the whole text. -/
def digitValues? (t : Text) : Option (List Nat) :=
  t.mapM Text.decimalDigit?

/-- The values of digits with single underscores between them. -/
def groupedDigits? : Text → Option (List Nat)
  | [] => none
  | c :: t =>
    match Text.decimalDigit? c, t with
    | none, _ => none
    | some d, [] => some [d]
    | some d, u :: t' =>
      if u = CodePoint.ofChar '_' then (groupedDigits? t').map (d :: ·)
      else (groupedDigits? (u :: t')).map (d :: ·)

/-- An integer with a sign, if it has few enough digits. -/
def signedInt? (negative : Bool) (ds : List Nat) : Option Int :=
  if ds.length ≤ digitLimit then
    let n : Int := Text.digitsValue ds
    some (if negative then -n else n)
  else none

/-- The integer that a text spells. -/
def toInt? (t : Text) : Option Int :=
  let (negative, body) := cutSign (unsurrounded t)
  (groupedDigits? body).bind (signedInt? negative)

/-- Whether a text is a minus sign, if any, and digits, and possibly a point and
more digits. -/
inductive Shape where
  | whole
  | fraction
deriving DecidableEq

/-- The shape of a plain numeral: digits that a minus sign may precede, and a
fractional part. -/
def shape? (t : Text) : Option Shape :=
  let (_, body) := cutMinus t
  match Text.cutAt? '.' body with
  | none => if body ≠ [] ∧ body.all Text.isDecimalDigit then some .whole else none
  | some (ws, fs) =>
    if ws ≠ [] ∧ fs ≠ [] ∧ ws.all Text.isDecimalDigit ∧ fs.all Text.isDecimalDigit then
      some .fraction
    else none

/-- The double that a plain numeral with a fractional part spells. -/
def toDouble? (t : Text) : Option Double :=
  let (negative, body) := cutMinus (unsurrounded t)
  match Text.cutAt? '.' body with
  | none => none
  | some (ws, fs) =>
    match digitValues? ws, digitValues? fs with
    | some whole, some fraction =>
      some (Decimal.toDouble negative
        ⟨Text.digitsValue (whole ++ fraction), -(fraction.length : Int)⟩)
    | _, _ => none

end RecordLog.Numeral
