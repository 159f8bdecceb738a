import RecordLog.Json
import RecordLog.Number.Decimal
import RecordLog.Number.Numeral

/-!
# Reading JSON

A reader for one JSON document.  It accepts the grammar of JSON together with the
words `NaN`, `Infinity` and `-Infinity`; white space is space, tab, line feed and
carriage return; a lone surrogate escape is kept; digits are ASCII digits.

A document that is refused is refused for the first offence met from the left.
An offence has no position here, only a kind, and the kinds have fixed wordings.
Two things follow from how a document is scanned: a number or word that is not
one is an expected value that is missing, and a four-digit escape counts as
complete only if something follows it.

An integer of too many digits is a failure of another sort: the document is well
formed, and its number is not taken.

Arrays and objects are nested without limit here.  An interpreter that reads a document by
recursion gives up at some depth, which depends on how deep its own stack is already.
-/

namespace RecordLog.Json

/-- How a document breaks the grammar. -/
inductive Offence where
  | byteOrderMark
  | expectedValue
  | extraData
  | controlCharacter
  | unterminatedString
  | badEscape
  | badUnicodeEscape
  | expectedKey
  | expectedColon
  | expectedComma
deriving DecidableEq

/-- The wording of an offence. -/
def Offence.message : Offence → Text
  | .byteOrderMark => "Unexpected UTF-8 BOM (decode using utf-8-sig)"
  | .expectedValue => "Expecting value"
  | .extraData => "Extra data"
  | .controlCharacter => "Invalid control character at"
  | .unterminatedString => "Unterminated string starting at"
  | .badEscape => "Invalid \\escape"
  | .badUnicodeEscape => "Invalid \\uXXXX escape"
  | .expectedKey => "Expecting property name enclosed in double quotes"
  | .expectedColon => "Expecting ':' delimiter"
  | .expectedComma => "Expecting ',' delimiter"

/-- Why a document has no value. -/
inductive ReadError where
  | offence (o : Offence)
  | tooManyDigits
deriving DecidableEq

/-- A reading: a value and what follows it. -/
abbrev Reading (α : Type) := Except ReadError (α × Text)

/-- White space between tokens. -/
def isSpace (c : CodePoint) : Bool :=
  c.val == 0x20 || c.val == 0x09 || c.val == 0x0A || c.val == 0x0D

/-- A text without the white space in front. -/
def skipSpace (t : Text) : Text :=
  t.dropWhile isSpace

/-! ### Strings -/

/-- The escapes of two letters. -/
def shortEscape? (c : CodePoint) : Option CodePoint :=
  if c.val = 0x22 || c.val = 0x5C || c.val = 0x2F then some c
  else if c.val = 0x62 then some '\x08'
  else if c.val = 0x66 then some '\x0C'
  else if c.val = 0x6E then some '\n'
  else if c.val = 0x72 then some '\r'
  else if c.val = 0x74 then some '\t'
  else none

/-- The number of four hexadecimal digits. -/
def hexQuad? (a b c d : CodePoint) : Option Nat :=
  match a.hexDigit?, b.hexDigit?, c.hexDigit?, d.hexDigit? with
  | some p, some q, some r, some s => some (((p * 16 + q) * 16 + r) * 16 + s)
  | _, _, _, _ => none

/-- Whether a number is the first half of a surrogate pair. -/
def isHighHalf (n : Nat) : Bool := 0xD800 ≤ n && n ≤ 0xDBFF

/-- Whether a number is the second half of a surrogate pair. -/
def isLowHalf (n : Nat) : Bool := 0xDC00 ≤ n && n ≤ 0xDFFF

/-- The code point of a surrogate pair. -/
def pairPoint (high low : Nat) : CodePoint :=
  CodePoint.ofNatOr (0x10000 + (high - 0xD800) * 0x400 + (low - 0xDC00)) '\uFFFD'

/-- What stands right after the first half of a pair. -/
inductive Follower where
  /-- No escape that could be a second half. -/
  | other
  /-- An escape whose digits are wrong. -/
  | broken
  /-- An escape, and what follows it. -/
  | escape (n : Nat) (rest : Text)

/-- Looks for a four-digit escape that something follows. -/
def follower : Text → Follower
  | bs :: u :: a :: b :: c :: d :: x :: rest =>
    if bs.val = 0x5C ∧ u.val = 0x75 then
      match hexQuad? a b c d with
      | some n => .escape n (x :: rest)
      | none => .broken
    else .other
  | _ => .other

/-- Puts a code point in front of a string that is being read. -/
def pushPoint (c : CodePoint) : Reading Text → Reading Text
  | .ok (t, rest) => .ok (c :: t, rest)
  | .error e => .error e

/-- The body of a string, from after its opening quote to after its closing one.
The fuel bounds the number of code points and escapes. -/
def readString : (fuel : Nat) → Text → Reading Text
  | 0, _ => .error (.offence .unterminatedString)
  | _ + 1, [] => .error (.offence .unterminatedString)
  | fuel + 1, c :: t =>
    if c.val = 0x22 then .ok ([], t)
    else if c.val = 0x5C then
      match t with
      | [] => .error (.offence .unterminatedString)
      | e :: t =>
        if e.val = 0x75 then
          match t with
          | p :: q :: r :: s :: x :: rest =>
            match hexQuad? p q r s with
            | none => .error (.offence .badUnicodeEscape)
            | some n =>
              if isHighHalf n then
                match follower (x :: rest) with
                | .broken => .error (.offence .badUnicodeEscape)
                | .escape m after =>
                  if isLowHalf m then pushPoint (pairPoint n m) (readString fuel after)
                  else pushPoint (CodePoint.ofNatOr n '\uFFFD') (readString fuel (x :: rest))
                | .other =>
                  pushPoint (CodePoint.ofNatOr n '\uFFFD') (readString fuel (x :: rest))
              else pushPoint (CodePoint.ofNatOr n '\uFFFD') (readString fuel (x :: rest))
          | _ => .error (.offence .badUnicodeEscape)
        else
          match shortEscape? e with
          | none => .error (.offence .badEscape)
          | some d => pushPoint d (readString fuel t)
    else if c.val < 0x20 then .error (.offence .controlCharacter)
    else pushPoint c (readString fuel t)

/-! ### Numbers -/

/-- The digits at the front of a text, and what follows them. -/
def cutDigits : Text → List Nat × Text
  | [] => ([], [])
  | c :: t =>
    match c.asciiDigit? with
    | some d => let (ds, rest) := cutDigits t; (d :: ds, rest)
    | none => ([], c :: t)

/-- The digits of a whole part: a zero on its own, or digits that do not start
with zero. -/
def cutWhole (t : Text) : List Nat × Text :=
  match t with
  | [] => ([], [])
  | c :: rest => if c.val = 0x30 then ([0], rest) else cutDigits t

/-- A point and the digits after it, if there is at least one. -/
def cutFraction (t : Text) : Option (List Nat) × Text :=
  match t with
  | [] => (none, [])
  | c :: rest =>
    if c.val = 0x2E then
      match cutDigits rest with
      | ([], _) => (none, t)
      | (ds, rest) => (some ds, rest)
    else (none, t)

/-- An exponent: its mark, a sign, and at least one digit. -/
def cutExponent (t : Text) : Option Int × Text :=
  match t with
  | [] => (none, [])
  | c :: rest =>
    if c.val = 0x65 || c.val = 0x45 then
      let (negative, digits) := Numeral.cutSign rest
      match cutDigits digits with
      | ([], _) => (none, t)
      | (ds, rest) =>
        let n : Int := Text.digitsValue ds
        (some (if negative then -n else n), rest)
    else (none, t)

/-- A number: an integer, or a double if it has a fraction or an exponent. -/
def readNumber (t : Text) : Reading Json :=
  let (negative, body) := Numeral.cutMinus t
  match cutWhole body with
  | ([], _) => .error (.offence .expectedValue)
  | (whole, rest) =>
    let (fraction, rest) := cutFraction rest
    let (exponent, rest) := cutExponent rest
    match fraction, exponent with
    | none, none =>
      match Numeral.signedInt? negative whole with
      | some n => .ok (int n, rest)
      | none => .error .tooManyDigits
    | _, _ =>
      let fs := fraction.getD []
      .ok (float (Decimal.toDouble negative
        ⟨Text.digitsValue (whole ++ fs), exponent.getD 0 - fs.length⟩), rest)

/-! ### Values -/

/-- The words of JSON and their values. -/
def words : List (Text × Json) :=
  [("null", null), ("true", bool true), ("false", bool false),
    ("NaN", float .nan), ("Infinity", float (.infinite false)),
    ("-Infinity", float (.infinite true))]

/-- A word at the front of a text. -/
def readWord? (t : Text) : Option (Json × Text) :=
  words.findSome? fun (word, value) => (Text.dropStart? word t).map (value, ·)

/-- A value that is neither a string nor an array nor an object. -/
def readAtom (t : Text) : Reading Json :=
  match readWord? t with
  | some reading => .ok reading
  | none => readNumber t

mutual

/-- One value, which starts at the front of the text.  The fuel bounds the steps
of reading; twice the length of the text is enough. -/
def readValue : (fuel : Nat) → Text → Reading Json
  | 0, _ => .error (.offence .expectedValue)
  | _ + 1, [] => .error (.offence .expectedValue)
  | fuel + 1, c :: t =>
    if c.val = 0x22 then
      match readString (t.length + 1) t with
      | .ok (s, rest) => .ok (str s, rest)
      | .error e => .error e
    else if c.val = 0x5B then
      let t := skipSpace t
      match t with
      | [] => .error (.offence .expectedValue)
      | d :: rest =>
        if d.val = 0x5D then .ok (arr [], rest)
        else
          match readItems fuel t with
          | .ok (items, rest) => .ok (arr items, rest)
          | .error e => .error e
    else if c.val = 0x7B then
      let t := skipSpace t
      match t with
      | [] => .error (.offence .expectedKey)
      | d :: rest =>
        if d.val = 0x7D then .ok (obj [], rest)
        else
          match readMembers fuel t with
          | .ok (members, rest) => .ok (obj (Members.ofList members), rest)
          | .error e => .error e
    else readAtom (c :: t)

/-- The items of an array up to its closing bracket; there is at least one. -/
def readItems : (fuel : Nat) → Text → Reading (List Json)
  | 0, _ => .error (.offence .expectedValue)
  | fuel + 1, t =>
    match readValue fuel t with
    | .error e => .error e
    | .ok (v, rest) =>
      match skipSpace rest with
      | [] => .error (.offence .expectedComma)
      | c :: rest =>
        if c.val = 0x5D then .ok ([v], rest)
        else if c.val = 0x2C then
          match readItems fuel (skipSpace rest) with
          | .ok (later, rest) => .ok (v :: later, rest)
          | .error e => .error e
        else .error (.offence .expectedComma)

/-- The members of an object up to its closing brace; there is at least one. -/
def readMembers : (fuel : Nat) → Text → Reading (List (Text × Json))
  | 0, _ => .error (.offence .expectedKey)
  | _ + 1, [] => .error (.offence .expectedKey)
  | fuel + 1, q :: t =>
    if q.val ≠ 0x22 then .error (.offence .expectedKey)
    else
      match readString (t.length + 1) t with
      | .error e => .error e
      | .ok (key, rest) =>
        match skipSpace rest with
        | [] => .error (.offence .expectedColon)
        | colon :: rest =>
          if colon.val ≠ 0x3A then .error (.offence .expectedColon)
          else
            match readValue fuel (skipSpace rest) with
            | .error e => .error e
            | .ok (v, rest) =>
              match skipSpace rest with
              | [] => .error (.offence .expectedComma)
              | c :: rest =>
                if c.val = 0x7D then .ok ([(key, v)], rest)
                else if c.val = 0x2C then
                  match readMembers fuel (skipSpace rest) with
                  | .ok (later, rest) => .ok ((key, v) :: later, rest)
                  | .error e => .error e
                else .error (.offence .expectedComma)

end

/-- Reads a document: one value with nothing but white space around it. -/
def read (t : Text) : Except ReadError Json :=
  match t with
  | c :: _ =>
    if c.val = 0xFEFF then .error (.offence .byteOrderMark)
    else
      let t := skipSpace t
      match readValue (2 * t.length + 2) t with
      | .error e => .error e
      | .ok (v, rest) =>
        match skipSpace rest with
        | [] => .ok v
        | _ :: _ => .error (.offence .extraData)
  | [] => .error (.offence .expectedValue)

end RecordLog.Json
