import RecordLog.Text
import RecordLog.Text.Printable

/-!
# Quotations

A message shows a text between quotes, with everything that could not be read
off the page written as an escape.  Single quotes are used unless the text holds
a single quote and no double quote.  Inside, the backslash and the quote in use
follow a backslash, tab, line feed and carriage return have a letter each, and
every other code point that is not printable is written by its number.
-/

namespace RecordLog.Text

/-- The quote around a text: single, unless only a double one avoids escapes. -/
def quoteFor (t : Text) : CodePoint :=
  if t.contains (CodePoint.ofChar '\x27') && !t.contains (CodePoint.ofChar '\x22') then '\x22' else '\x27'

/-- A code point by its number: two, four or eight hexadecimal digits. -/
def numbered (c : CodePoint) : Text :=
  if c.val ≤ 0xFF then "\\x" ++ hex 2 c.val
  else if c.val ≤ 0xFFFF then "\\u" ++ hex 4 c.val
  else "\\U" ++ hex 8 c.val

/-- A code point inside a quotation with the given quote. -/
def quotedPoint (quote c : CodePoint) : Text :=
  if c = quote || c = CodePoint.ofChar '\x5C' then [CodePoint.ofChar '\x5C', c]
  else if c = CodePoint.ofChar '\t' then "\\t"
  else if c = CodePoint.ofChar '\n' then "\\n"
  else if c = CodePoint.ofChar '\r' then "\\r"
  else if isPrintable c then [c]
  else numbered c

/-- A text between quotes. -/
def quoted (t : Text) : Text :=
  let quote := quoteFor t
  quote :: t.flatMap (quotedPoint quote) ++ [quote]

end RecordLog.Text
