import RecordLog.Text
import RecordLog.Text.Ranges

/-!
# Blank code points

The white space of Unicode together with the four information separators
U+001C to U+001F.  Trimming, and reading numbers from text, use this class.
-/

namespace RecordLog.Text

/-- The ranges of blank code points. -/
def blankRanges : Ranges := [
    (0x9, 0xD), (0x1C, 0x20), (0x85, 0x85), (0xA0, 0xA0), (0x1680, 0x1680),
    (0x2000, 0x200A), (0x2028, 0x2029), (0x202F, 0x202F), (0x205F, 0x205F), (0x3000, 0x3000) ]

/-- Whether a code point is white space or an information separator. -/
def isBlank (c : CodePoint) : Bool :=
  blankRanges.covers c.val

/-- The text without the blank code points at both ends. -/
def trimmed (t : Text) : Text :=
  dropTrailing isBlank (t.dropWhile isBlank)

end RecordLog.Text
