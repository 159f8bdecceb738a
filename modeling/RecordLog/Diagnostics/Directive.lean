import RecordLog.Failure
import RecordLog.Number.Places

/-!
# Filling in templates

A template is text with directives: a percent sign, a key in parentheses or none,
flags, a width, a precision, a size that means nothing, and a letter that says how
the value is written.  Without keys the values are taken one after the other, and
all of them must be used; with keys they are members of one object.

The letters are `s`, `r` and `a` for texts of values, `d`, `i`, `u`, `o`, `x`
and `X` for integers, `e`, `f` and `g` in either case for doubles, and `c` for one
character.  Two percent signs in a row stand for one.
-/

namespace RecordLog

/-- A width or a precision: none, a number, or the next value. -/
inductive Extent where
  | none
  | fixed (n : Nat)
  | next
deriving DecidableEq

/-- A directive of a template. -/
structure Directive where
  key : Option Text
  flags : Text
  width : Extent
  precision : Extent
  /-- Whether a letter for a size was given, which changes nothing. -/
  sized : Bool
  /-- The letter, or nothing if the template ends before it. -/
  letter : Option CodePoint
deriving DecidableEq

namespace Directive

/-- Whether a directive has a flag. -/
def has (d : Directive) (flag : Char) : Bool :=
  CodePoint.ofChar flag ∈ d.flags

/-! ### Reading -/

/-- A key up to the parenthesis that closes it, `depth` more being open. -/
def readKey? : (depth : Nat) → Text → Option (Text × Text)
  | _, [] => Option.none
  | depth, c :: t =>
    if c = CodePoint.ofChar ')' then
      match depth with
      | 0 => some ([], t)
      | depth + 1 => (readKey? depth t).map fun (key, rest) => (c :: key, rest)
    else
      let depth := if c = CodePoint.ofChar '(' then depth + 1 else depth
      (readKey? depth t).map fun (key, rest) => (c :: key, rest)

/-- The code points that are flags. -/
def flagPoints : Text := "-+ #0"

/-- A width or precision at the front of a text, and what follows it. -/
def readExtent (t : Text) : Extent × Text :=
  match t with
  | [] => (.none, [])
  | c :: rest =>
    if c = CodePoint.ofChar '*' then (.next, rest)
    else
      match (t.takeWhile CodePoint.isAsciiDigit).filterMap CodePoint.asciiDigit? with
      | [] => (.none, t)
      | ds => (.fixed (ds.foldl (fun n d => 10 * n + d) 0), t.dropWhile CodePoint.isAsciiDigit)

/-- A precision at the front of a text, and what follows it.  A point with no
number after it is a precision of zero. -/
def readPrecision (t : Text) : Extent × Text :=
  match t with
  | [] => (.none, [])
  | c :: rest =>
    if c = CodePoint.ofChar '.' then
      match readExtent rest with
      | (.none, rest) => (.fixed 0, rest)
      | found => found
    else (.none, t)

/-- The letters for sizes. -/
def sizePoints : Text := "hlL"

/-- A letter for a size at the front of a text, if there is one, is left out. -/
def dropSize : Text → Bool × Text
  | [] => (false, [])
  | c :: t => if c ∈ sizePoints then (true, t) else (false, c :: t)

/-- The rest of a directive after its key, and what follows it. -/
def readBody (key : Option Text) (t : Text) : Directive × Text :=
  let flags := t.takeWhile (· ∈ flagPoints)
  let (width, t) := readExtent (t.dropWhile (· ∈ flagPoints))
  let (precision, t) := readPrecision t
  let (sized, t) := dropSize t
  (⟨key, flags, width, precision, sized, t.head?⟩, t.tail)

/-- The directive after a percent sign, and what follows it; nothing if the
parenthesis around its key is not closed. -/
def read? (t : Text) : Option (Directive × Text) :=
  match t with
  | [] => some (readBody Option.none [])
  | c :: rest =>
    if c = CodePoint.ofChar '(' then
      (readKey? 0 rest).map fun (key, rest) => readBody (some key) rest
    else some (readBody Option.none t)

/-! ### Writing -/

/-- Fills a text up to a width. -/
def padded (d : Directive) (width : Nat) (t : Text) : Text :=
  let blanks := List.replicate (width - t.length) (CodePoint.ofChar ' ')
  if d.has '-' then t ++ blanks else blanks ++ t

/-- Zeros in front of digits up to a width. -/
def zeroPadded (width : Nat) (ds : Text) : Text :=
  List.replicate (width - ds.length) (CodePoint.ofChar '0') ++ ds

/-- The sign of a number. -/
def sign (d : Directive) (negative : Bool) : Text :=
  if negative then "-" else if d.has '+' then "+" else if d.has ' ' then " " else []

/-- A number filled up to a width, with zeros after its sign and mark or with
blanks. -/
def paddedNumber (d : Directive) (width : Nat) (front ds : Text) : Text :=
  if d.has '0' && !d.has '-' then front ++ zeroPadded (width - front.length) ds
  else d.padded width (front ++ ds)

/-- Code points beyond ASCII as escapes. -/
def asciiEscaped (t : Text) : Text :=
  t.flatMap fun c => if c.val < 0x80 then [c] else Text.numbered c

/-- The digits of a number in a base that is a power of two. -/
def binaryDigits (bits : Nat) (n : Nat) : Text :=
  let width := n.log2 / bits + 1
  (List.range width).reverse.map fun i =>
    let d := n / twoTo (bits * i) % twoTo bits
    CodePoint.ofNatOr (if d < 10 then 0x30 + d else 0x57 + d) '0'

/-- What stands in front of the digits in the alternative form. -/
def baseMark (letter : CodePoint) : Text :=
  if letter = CodePoint.ofChar 'o' then "0o"
  else if letter = CodePoint.ofChar 'x' then "0x"
  else if letter = CodePoint.ofChar 'X' then "0X"
  else []

/-- An ASCII letter in upper case. -/
def upperLetter (c : CodePoint) : CodePoint :=
  if 0x61 ≤ c.val && c.val ≤ 0x7A then CodePoint.ofNatOr (c.val - 0x20) c else c

/-- The digits of a number as a letter asks. -/
def numberDigits (letter : CodePoint) (n : Nat) : Text :=
  if letter = CodePoint.ofChar 'o' then binaryDigits 3 n
  else if letter = CodePoint.ofChar 'x' then binaryDigits 4 n
  else if letter = CodePoint.ofChar 'X' then (binaryDigits 4 n).map upperLetter
  else Text.ofNat n

/-- An integer as a letter asks. -/
def writeInt (d : Directive) (letter : CodePoint) (width : Nat) (precision : Option Nat)
    (n : Int) : Text :=
  let mark := if d.has '#' then baseMark letter else []
  d.paddedNumber width (d.sign (n < 0) ++ mark)
    (zeroPadded (precision.getD 0) (numberDigits letter n.natAbs))

/-- The letters for doubles, with the form that each asks for. -/
def doubleForms : List (CodePoint × PlacesForm) :=
  [('e', .scientific), ('E', .scientific), ('f', .positional), ('F', .positional),
    ('g', .general), ('G', .general)]

/-- The precision of doubles where none is given. -/
def usualPrecision : Nat := 6

/-- The sign and the text of a double, in a form. -/
def doubleParts (d : Directive) (form : PlacesForm) (precision : Nat) : Double → Bool × Text
  | .nan => (false, "nan")
  | .infinite negative => (negative, "inf")
  | .finite negative m => (negative, form.render (d.has '#') precision m)

/-- A double as a letter asks. -/
def writeDouble (d : Directive) (letter : CodePoint) (form : PlacesForm) (width : Nat)
    (precision : Option Nat) (x : Double) : Text :=
  let (negative, t) := d.doubleParts form (precision.getD usualPrecision) x
  d.paddedNumber width (d.sign negative)
    (if upperLetter letter = letter then t.map upperLetter else t)

/-- The integer that a value is written as. -/
def intOf (letter : CodePoint) : Json → Outcome Int
  | .int n => .ok n
  | .bool b => .ok (if b then 1 else 0)
  | .float x =>
    if baseMark letter ≠ [] then .error .unsuitable
    else
      match x with
      | .nan => .error .malformed
      | .infinite _ => .error .overflow
      | x => .ok (x.truncated?.getD 0)
  | _ => .error .unsuitable

/-- The character that a value is written as. -/
def characterOf : Json → Outcome Text
  | .str [c] => .ok [c]
  | .int n =>
    if h : n.toNat < 0x110000 ∧ 0 ≤ n then .ok [⟨n.toNat, h.1⟩] else .error .overflow
  | .bool b => .ok [CodePoint.ofNatOr b.toNat ' ']
  | _ => .error .unsuitable

/-- The letters for integers. -/
def intLetters : Text := "diuoxX"

/-- A value as a letter asks. -/
def write (d : Directive) (letter : CodePoint) (width : Nat) (precision : Option Nat)
    (v : Json) : Outcome Text :=
  let cut (t : Text) : Text := match precision with | some n => t.take n | Option.none => t
  if letter = CodePoint.ofChar 's' then .ok (d.padded width (cut v.plain))
  else if letter = CodePoint.ofChar 'r' then .ok (d.padded width (cut v.display))
  else if letter = CodePoint.ofChar 'a' then
    .ok (d.padded width (cut (asciiEscaped v.display)))
  else if letter ∈ intLetters then (intOf letter v).map (d.writeInt letter width precision)
  else if letter = CodePoint.ofChar 'c' then (characterOf v).map (d.padded width)
  else
    match doubleForms.lookup letter with
    | some form => v.toDouble.map (d.writeDouble letter form width precision)
    | Option.none => .error .malformed

end Directive

/-! ### Templates -/

/-- What a template is filled in with. -/
inductive Filling where
  | values (vs : List Json)
  | members (m : Members)

namespace Filling

/-- The next of the values that are left. -/
def take : List Json → Outcome (Json × List Json)
  | [] => .error .unsuitable
  | v :: later => .ok (v, later)

/-- The integer that a value can set a width or a precision to. -/
def extentValue : Json → Outcome Int
  | .int n => .ok n
  | .bool b => .ok (if b then 1 else 0)
  | _ => .error .unsuitable

/-- A width or precision below a limit, which may be the next value. -/
def takeExtent (limit : Nat) (left : List Json) : Extent → Outcome (Option Int × List Json)
  | .none => .ok (none, left)
  | .fixed n => if n < limit then .ok (some n, left) else .error .malformed
  | .next =>
    match left with
    | [] => .error .unsuitable
    | v :: later =>
      match extentValue v with
      | .error e => .error e
      | .ok n => if n.natAbs < limit then .ok (some n, later) else .error .overflow

/-- Where widths end. -/
def widthLimit : Nat := twoTo 63

/-- Where precisions end. -/
def precisionLimit : Nat := twoTo 31

/-- The values that are left for a directive, which may choose one by key. -/
def choose (filling : Filling) (left : List Json) (key : Option Text) : Outcome (List Json) :=
  match key, filling with
  | none, _ => .ok left
  | some _, .values _ => .error .unsuitable
  | some key, .members m =>
    match Members.get? m key with
    | some v => .ok [v]
    | none => .error .absent

/-- A directive with its width settled: a negative one puts the text on the
left. -/
def withWidth (d : Directive) : Option Int → Directive × Nat
  | none => (d, 0)
  | some n => (if n < 0 then { d with flags := CodePoint.ofChar '-' :: d.flags } else d, n.natAbs)

/-- A directive filled in, and the values that are left. -/
def fillDirective (filling : Filling) (left : List Json) (d : Directive) :
    Outcome (Text × List Json) := do
  let left ← filling.choose left d.key
  let (width, left) ← takeExtent widthLimit left d.width
  let (precision, left) ← takeExtent precisionLimit left d.precision
  match d.letter with
  | none => .error .malformed
  | some letter =>
    let (v, left) ← take left
    let (d, width) := withWidth d width
    let t ← d.write letter width (precision.map Int.toNat) v
    return (t, left)

/-- The failure of a directive whose key does not end. -/
def unclosedKey : Filling → Failure
  | .values _ => .unsuitable
  | .members _ => .malformed

/-- A directive after its percent sign filled in, the values that are left, and what
follows in the template. -/
def fillNext (filling : Filling) (left : List Json) (t : Text) :
    Outcome (Text × List Json × Text) :=
  match Text.dropStart? "%" t with
  | some rest => .ok ("%", left, rest)
  | none =>
    match Directive.read? t with
    | none => .error filling.unclosedKey
    | some (d, rest) => (filling.fillDirective left d).map fun (filled, left) => (filled, left, rest)

/-- A template filled in from the values that are left.  The fuel is the length of
the template. -/
def fillFrom (filling : Filling) : (fuel : Nat) → List Json → Text → Outcome (Text × List Json)
  | 0, left, _ => .ok ([], left)
  | _, left, [] => .ok ([], left)
  | fuel + 1, left, c :: t =>
    if c = CodePoint.ofChar '%' then
      match filling.fillNext left t with
      | .error e => .error e
      | .ok (filled, left, rest) =>
        (fillFrom filling fuel left rest).map fun (later, left) => (filled ++ later, left)
    else (fillFrom filling fuel left t).map fun (later, left) => (c :: later, left)

/-- A template filled in. -/
def fill (filling : Filling) (template : Text) : Outcome Text :=
  match filling with
  | .values vs =>
    match fillFrom filling template.length vs template with
    | .ok (t, []) => .ok t
    | .ok (_, _ :: _) => .error .unsuitable
    | .error e => .error e
  | .members m => (fillFrom filling template.length [.obj m] template).map (·.1)

end Filling

end RecordLog
