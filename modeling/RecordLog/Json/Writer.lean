import RecordLog.Json
import RecordLog.Split
import RecordLog.Number.Shortest

/-!
# Writing JSON

One writer serves every output.  A `Style` fixes what differs: the separators,
whether code points past the printable ASCII ones are escaped, and whether the members of an
object are put in the order of their keys.

Strings are escaped as JSON requires, with the two-letter escapes where JSON has
them; when only ASCII may be written, a code point past U+FFFF becomes a pair of
surrogate escapes.  The doubles that have no digits are written as `NaN` and
`Infinity`.
-/

namespace RecordLog

namespace Json

/-- What may differ between two written forms of a value. -/
structure Style where
  /-- What stands between items and between members. -/
  itemSeparator : Text
  /-- What stands between a key and its value. -/
  keySeparator : Text
  /-- Whether everything but printable ASCII is escaped. -/
  asciiOnly : Bool
  /-- Whether members are written in the order of their keys. -/
  sortKeys : Bool

namespace Style

/-- Spaces after separators, ASCII only. -/
def ascii : Style := ⟨", ", ": ", true, false⟩

/-- Spaces after separators, any code point. -/
def unicode : Style := ⟨", ", ": ", false, false⟩

/-- No spaces, ASCII only. -/
def compact : Style := ⟨",", ":", true, false⟩

/-- Spaces after separators, ASCII only, members in the order of their keys: one
text for all orders of members. -/
def canonical : Style := ⟨", ", ": ", true, true⟩

end Style

/-- The words of JSON text for the doubles without digits. -/
def doubleWords : DoubleWords := ⟨"NaN", "Infinity"⟩

/-- One sixteen-bit unit as an escape. -/
def unitEscape (n : Nat) : Text :=
  "\\u" ++ Text.hex 4 n

/-- A code point as one escape, or two past U+FFFF. -/
def numberEscape (c : CodePoint) : Text :=
  if c.val < 0x10000 then unitEscape c.val
  else
    let n := c.val - 0x10000
    unitEscape (0xD800 + n / 0x400) ++ unitEscape (0xDC00 + n % 0x400)

/-- A code point inside a written string. -/
def escaped (asciiOnly : Bool) (c : CodePoint) : Text :=
  if c.val = 0x22 then "\\\""
  else if c.val = 0x5C then "\\\\"
  else if c.val = 0x08 then "\\b"
  else if c.val = 0x09 then "\\t"
  else if c.val = 0x0A then "\\n"
  else if c.val = 0x0C then "\\f"
  else if c.val = 0x0D then "\\r"
  else if c.val < 0x20 || (asciiOnly && 0x7F ≤ c.val) then numberEscape c
  else [c]

/-- A text as a JSON string. -/
def writeString (asciiOnly : Bool) (t : Text) : Text :=
  CodePoint.ofChar '\x22' :: t.flatMap (escaped asciiOnly) ++ [CodePoint.ofChar '\x22']

/-- Puts a member into a list of members that is in the order of keys. -/
def insertMember {α : Type} (m : Text × α) : List (Text × α) → List (Text × α)
  | [] => [m]
  | n :: later =>
    if Text.precedes n.1 m.1 then n :: insertMember m later else m :: n :: later

/-- Members in the order of their keys. -/
def sortMembers {α : Type} (ms : List (Text × α)) : List (Text × α) :=
  ms.foldr insertMember []

/-- Written parts between brackets. -/
def bracketed (opening closing : Char) (separator : Text) (parts : List Text) : Text :=
  CodePoint.ofChar opening :: joined separator parts ++ [CodePoint.ofChar closing]

/-- Written members, sorted if the style asks for it. -/
def arranged (style : Style) (ms : List (Text × Text)) : List Text :=
  (if style.sortKeys then sortMembers ms else ms).map fun (k, v) =>
    writeString style.asciiOnly k ++ style.keySeparator ++ v

mutual

/-- The written form of a value. -/
def write (style : Style) : Json → Text
  | null => "null"
  | bool true => "true"
  | bool false => "false"
  | int n => Text.ofInt n
  | float x => x.render doubleWords
  | str t => writeString style.asciiOnly t
  | arr items => bracketed '[' ']' style.itemSeparator (writeItems style items)
  | obj ms => bracketed '\x7B' '\x7D' style.itemSeparator (arranged style (writeMembers style ms))

/-- The written forms of items. -/
def writeItems (style : Style) : List Json → List Text
  | [] => []
  | v :: later => write style v :: writeItems style later

/-- Members with their values written. -/
def writeMembers (style : Style) : List (Text × Json) → List (Text × Text)
  | [] => []
  | (k, v) :: later => (k, write style v) :: writeMembers style later

end

end Json

end RecordLog
