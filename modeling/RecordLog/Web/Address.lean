import RecordLog.Split
import RecordLog.Text.Utf8

/-!
# Addresses

An address is a path and a query.  The dot segments of the path are resolved while
it is still escaped.  Escapes are percent signs with two hexadecimal digits and
spell UTF-8, in which malformed octets read as U+FFFD; a path is unescaped twice,
so that an escaped percent sign can itself begin an escape.

A query is a list of names with values, between ampersands, in which a plus sign
stands for a space.
-/

namespace RecordLog

namespace Text

/-- The code point at the front of octets, U+FFFD if they are malformed there, and
the octets after it.  `tried` octets were too few so far, and the fuel is how many
more may be tried. -/
def decodeFirst (octets : Octets) : (fuel tried : Nat) → CodePoint × Octets
  | 0, _ => ('\uFFFD', [])
  | fuel + 1, tried =>
    if octets.length ≤ tried then ('\uFFFD', [])
    else
      match decodeUtf8 (octets.take (tried + 1)) with
      | .ok (c :: _) => (c, octets.drop (tried + 1))
      | .ok [] => ('\uFFFD', [])
      | .error .endOfData => decodeFirst octets fuel (tried + 1)
      | .error _ => ('\uFFFD', octets.drop (max 1 tried))

/-- Octets as UTF-8, with U+FFFD for what is malformed.  The fuel is the number of
octets. -/
def decodeLenientFrom : (fuel : Nat) → Octets → Text
  | 0, _ => []
  | _, [] => []
  | fuel + 1, octets =>
    let (c, rest) := decodeFirst octets 4 0
    c :: decodeLenientFrom fuel rest

/-- Octets as UTF-8, with U+FFFD for what is malformed. -/
def decodeLenient (octets : Octets) : Text :=
  decodeLenientFrom octets.length octets

/-- The octets that a run of ASCII stands for, with its escapes resolved. -/
def unescapedOctets : Text → Octets
  | [] => []
  | [c] => utf8Octets c
  | [c, d] => utf8Octets c ++ utf8Octets d
  | c :: d :: e :: t =>
    if c = CodePoint.ofChar '%' then
      match d.hexDigit?, e.hexDigit? with
      | some hi, some lo => .ofNat (16 * hi + lo) :: unescapedOctets t
      | _, _ => utf8Octets c ++ unescapedOctets (d :: e :: t)
    else utf8Octets c ++ unescapedOctets (d :: e :: t)

/-- A text with its escapes resolved, `run` being the run of ASCII in front of it,
last code point first. -/
def unescapedAfter (run : Text) : Text → Text
  | [] => decodeLenient (unescapedOctets run.reverse)
  | c :: t =>
    if c.val < 0x80 then unescapedAfter (c :: run) t
    else decodeLenient (unescapedOctets run.reverse) ++ c :: unescapedAfter [] t

/-- A text with its escapes resolved. -/
def unescaped (t : Text) : Text :=
  unescapedAfter [] t

end Text

/-- A path and a query. -/
structure Address where
  path : Text
  query : List (Text × Text)

namespace Address

/-- What stands before the first occurrence of a code point, and what follows it. -/
def before (sep : CodePoint) (t : Text) : Text × Text :=
  (Text.cutAt? sep t).getD (t, [])

/-- One more segment on top of those so far, last first. -/
def addSegment (segments : List Text) (segment : Text) : List Text :=
  if segment = Text.ofString "." then segments
  else if segment = Text.ofString ".." then
    match segments with
    | [] => []
    | [[]] => [[]]
    | _ :: earlier => earlier
  else segment :: segments

/-- A path without dot segments. -/
def resolveDots (path : Text) : Text :=
  let slash := CodePoint.ofChar '/'
  joined [slash] ((splitOn slash path).foldl addSegment []).reverse

/-- A name or value of a query. -/
def queryText (t : Text) : Text :=
  Text.unescaped (t.map fun c => if c = CodePoint.ofChar '+' then CodePoint.ofChar ' ' else c)

/-- The names and values of a query. -/
def readQuery (t : Text) : List (Text × Text) :=
  ((splitOn (CodePoint.ofChar '&') t).filter fun part => !part.isEmpty).map fun part =>
    let (name, value) := before (CodePoint.ofChar '=') part
    (queryText name, queryText value)

/-- A path from its root. -/
def fromRoot (path : Text) : Text :=
  if path.head? = some (CodePoint.ofChar '/') then path else CodePoint.ofChar '/' :: path

/-- Reads an address; a query that is given beside it takes the place of its own. -/
def read (t : Text) (query : Option (List (Text × Text))) : Address :=
  let (t, _) := before (CodePoint.ofChar '#') t
  let (path, own) := before (CodePoint.ofChar '?') t
  ⟨(resolveDots (fromRoot path)).unescaped.unescaped, query.getD (readQuery own)⟩

/-- The last value of a name in the query. -/
def value? (a : Address) (name : Text) : Option Text :=
  a.query.reverse.lookup name

end Address

end RecordLog
