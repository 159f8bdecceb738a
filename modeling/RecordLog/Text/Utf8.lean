import RecordLog.Text

/-!
# UTF-8

A code point takes one to four octets.  Reading refuses overlong forms,
surrogates and numbers past U+10FFFF, and names the first thing that is wrong:
an octet that cannot start a code point, an octet that cannot continue the one
begun, or the end of the data inside one.

Since a lead octet restricts the octet after it, the restrictions of `E0`, `ED`,
`F0` and `F4` are found at the second octet, before the end of data is noticed.
-/

namespace RecordLog

/-- Raw bytes. -/
abbrev Octets := List UInt8

namespace Text

/-- Why octets are not UTF-8. -/
inductive Malformation where
  | startByte
  | continuationByte
  | endOfData
deriving DecidableEq

/-- The wording of a malformation. -/
def Malformation.message : Malformation → Text
  | .startByte => "invalid start byte"
  | .continuationByte => "invalid continuation byte"
  | .endOfData => "unexpected end of data"

/-- Whether an octet may continue a code point. -/
def isTail (b : UInt8) : Bool :=
  0x80 ≤ b.toNat && b.toNat < 0xC0

/-- Whether the second octet `b` may follow the lead octet `a`. -/
def isSecond (a b : UInt8) : Bool :=
  isTail b &&
    (a.toNat != 0xE0 || 0xA0 ≤ b.toNat) && (a.toNat != 0xED || b.toNat < 0xA0) &&
    (a.toNat != 0xF0 || 0x90 ≤ b.toNat) && (a.toNat != 0xF4 || b.toNat < 0x90)

/-- The six payload bits of a continuation octet. -/
def tailBits (b : UInt8) : Nat :=
  b.toNat % 0x40

/-- A code point in front of the rest of a reading. -/
def ahead (n : Nat) (later : Except Malformation Text) : Except Malformation Text :=
  later.map (CodePoint.ofNatOr n '\uFFFD' :: ·)

/-- Reads UTF-8 up to the first malformation. -/
def decodeUtf8 : Octets → Except Malformation Text
  | [] => .ok []
  | a :: rest =>
    if a.toNat < 0x80 then ahead a.toNat (decodeUtf8 rest)
    else if a.toNat < 0xC2 || 0xF5 ≤ a.toNat then .error .startByte
    else
      match rest with
      | [] => .error .endOfData
      | b :: rest =>
        if !isSecond a b then .error .continuationByte
        else if a.toNat < 0xE0 then
          ahead ((a.toNat % 0x20) * 0x40 + tailBits b) (decodeUtf8 rest)
        else
          match rest with
          | [] => .error .endOfData
          | c :: rest =>
            if !isTail c then .error .continuationByte
            else if a.toNat < 0xF0 then
              ahead (((a.toNat % 0x10) * 0x40 + tailBits b) * 0x40 + tailBits c)
                (decodeUtf8 rest)
            else
              match rest with
              | [] => .error .endOfData
              | d :: rest =>
                if !isTail d then .error .continuationByte
                else
                  ahead ((((a.toNat % 0x08) * 0x40 + tailBits b) * 0x40 + tailBits c) * 0x40
                    + tailBits d) (decodeUtf8 rest)

/-- The octets of one code point. -/
def utf8Octets (c : CodePoint) : Octets :=
  let n := c.val
  if n < 0x80 then [.ofNat n]
  else if n < 0x800 then [.ofNat (0xC0 + n / 0x40), .ofNat (0x80 + n % 0x40)]
  else if n < 0x10000 then
    [.ofNat (0xE0 + n / 0x1000), .ofNat (0x80 + n / 0x40 % 0x40), .ofNat (0x80 + n % 0x40)]
  else
    [.ofNat (0xF0 + n / 0x40000), .ofNat (0x80 + n / 0x1000 % 0x40),
      .ofNat (0x80 + n / 0x40 % 0x40), .ofNat (0x80 + n % 0x40)]

/-- Writes UTF-8.  A lone surrogate is written like any other code point of its
size, and reading then refuses it. -/
def encodeUtf8 (t : Text) : Octets :=
  t.flatMap utf8Octets

end Text

end RecordLog
