import RecordLog.Json.Reader
import RecordLog.Text.Utf8

/-!
# Documents as octets

A document that arrives as octets may be in UTF-8, UTF-16 or UTF-32.  A mark of the byte order
at the front tells which it is.  Where there is none, the zeros among the first octets tell,
since a document starts with ASCII characters.

Lone surrogates are read like other code points in all encodings, also in UTF-8, where
`Text.decodeUtf8` refuses them.
-/

namespace RecordLog

/-- Which octet of a number comes first. -/
inductive ByteOrder where
  | big
  | little
deriving DecidableEq

/-- How octets encode a text. -/
inductive Encoding where
  | utf8
  | utf16 (order : ByteOrder)
  | utf32 (order : ByteOrder)
deriving DecidableEq

/-- The number that octets spell. -/
def ByteOrder.number (order : ByteOrder) (octets : Octets) : Nat :=
  let digits := match order with
    | big => octets
    | little => octets.reverse
  digits.foldl (fun n b => n * 0x100 + b.toNat) 0

namespace Encoding

/-! ### Which encoding it is -/

/-- The marks of the byte order; a longer one comes before its beginning. -/
def marks : List (Octets × Encoding) :=
  [([0x00, 0x00, 0xFE, 0xFF], utf32 .big), ([0xFF, 0xFE, 0x00, 0x00], utf32 .little),
    ([0xFE, 0xFF], utf16 .big), ([0xFF, 0xFE], utf16 .little), ([0xEF, 0xBB, 0xBF], utf8)]

/-- The encoding of octets without a mark. -/
def ofZeros : Octets → Encoding
  | a :: b :: c :: d :: _ =>
    if a = 0 then if b = 0 then utf32 .big else utf16 .big
    else if b = 0 then if c = 0 ∧ d = 0 then utf32 .little else utf16 .little
    else utf8
  | [a, b] => if a = 0 then utf16 .big else if b = 0 then utf16 .little else utf8
  | _ => utf8

/-- The encoding of octets, and the octets after the mark. -/
def detect (octets : Octets) : Encoding × Octets :=
  match marks.find? fun mark => mark.1.isPrefixOf octets with
  | some (mark, encoding) => (encoding, octets.drop mark.length)
  | none => (ofZeros octets, octets)

/-! ### Reading -/

/-- Puts the code point with a number in front of a reading, if these are its octets. -/
def ahead? (front : Octets) (n : Nat) (later : Option Text) : Option Text :=
  let c := CodePoint.ofNatOr n '\uFFFD'
  if Text.utf8Octets c = front then later.map (c :: ·) else none

/-- Reads UTF-8. -/
def readUtf8? : Octets → Option Text
  | [] => some []
  | a :: rest =>
    if a.toNat < 0x80 then ahead? [a] a.toNat (readUtf8? rest)
    else
      match rest with
      | [] => none
      | b :: rest =>
        if a.toNat < 0xE0 then
          ahead? [a, b] ((a.toNat % 0x20) * 0x40 + Text.tailBits b) (readUtf8? rest)
        else
          match rest with
          | [] => none
          | c :: rest =>
            if a.toNat < 0xF0 then
              ahead? [a, b, c]
                (((a.toNat % 0x10) * 0x40 + Text.tailBits b) * 0x40 + Text.tailBits c)
                (readUtf8? rest)
            else
              match rest with
              | [] => none
              | d :: rest =>
                ahead? [a, b, c, d]
                  ((((a.toNat % 0x08) * 0x40 + Text.tailBits b) * 0x40 + Text.tailBits c) * 0x40
                    + Text.tailBits d)
                  (readUtf8? rest)

/-- The numbers of two octets each. -/
def units? (order : ByteOrder) : Octets → Option (List Nat)
  | [] => some []
  | [_] => none
  | a :: b :: rest => (units? order rest).map (order.number [a, b] :: ·)

/-- The text of the units of UTF-16.  The two halves of a pair are one code point. -/
def ofUnits : List Nat → Text
  | [] => []
  | [n] => [CodePoint.ofNatOr n '\uFFFD']
  | m :: n :: rest =>
    if Json.isHighHalf m && Json.isLowHalf n then Json.pairPoint m n :: ofUnits rest
    else CodePoint.ofNatOr m '\uFFFD' :: ofUnits (n :: rest)

/-- Reads UTF-32. -/
def readUtf32? (order : ByteOrder) : Octets → Option Text
  | [] => some []
  | a :: b :: c :: d :: rest =>
    let n := order.number [a, b, c, d]
    if h : n < 0x110000 then (readUtf32? order rest).map (⟨n, h⟩ :: ·) else none
  | _ => none

/-- Reads the text of octets. -/
def read? : Encoding → Octets → Option Text
  | utf8, octets => readUtf8? octets
  | utf16 order, octets => (units? order octets).map ofUnits
  | utf32 order, octets => readUtf32? order octets

end Encoding

namespace Json

/-- Why octets are no document. -/
inductive OctetsError where
  /-- They are no text. -/
  | undecodable
  /-- The text is no document. -/
  | unreadable (e : ReadError)

/-- Reads a document from octets. -/
def readOctets (octets : Octets) : Except OctetsError Json :=
  let (encoding, octets) := Encoding.detect octets
  match encoding.read? octets with
  | none => .error .undecodable
  | some t => (read t).mapError .unreadable

end Json

end RecordLog
