/-!
# Text

A text is a list of Unicode code points.  Lone surrogates are code points like
any other here: a record may hold one, a query may ask for one, and a name in a
message may contain one, so the type must be able to carry them.

The definitions below are the plain vocabulary of the library: literals, the
order of texts, cutting off a beginning or an end, and numbers in decimal and
hexadecimal notation.
-/

namespace RecordLog

/-- A Unicode code point, lone surrogates included. -/
structure CodePoint where
  /-- The number of the code point. -/
  val : Nat
  /-- Code points end at U+10FFFF. -/
  isLt : val < 0x110000
deriving DecidableEq

namespace CodePoint

/-- The code point of a character. -/
def ofChar (c : Char) : CodePoint :=
  ⟨c.toNat, by
    have h := c.valid
    simp only [UInt32.isValidChar, Nat.isValidChar] at h
    simp only [Char.toNat]
    omega⟩

instance : Coe Char CodePoint := ⟨ofChar⟩

/-- The code point with the given number, or `other` past U+10FFFF. -/
def ofNatOr (n : Nat) (other : CodePoint) : CodePoint :=
  if h : n < 0x110000 then ⟨n, h⟩ else other

/-- The code points U+D800 to U+DFFF stand for no character on their own. -/
def isSurrogate (c : CodePoint) : Bool :=
  0xD800 ≤ c.val && c.val ≤ 0xDFFF

/-- The character of a code point; a surrogate shows as U+FFFD. -/
def toChar (c : CodePoint) : Char :=
  if c.isSurrogate then '\uFFFD' else Char.ofNat c.val

/-- The value of an ASCII decimal digit. -/
def asciiDigit? (c : CodePoint) : Option Nat :=
  if 0x30 ≤ c.val && c.val ≤ 0x39 then some (c.val - 0x30) else none

/-- Whether the code point is an ASCII decimal digit. -/
def isAsciiDigit (c : CodePoint) : Bool :=
  0x30 ≤ c.val && c.val ≤ 0x39

/-- The value of a hexadecimal digit of either case. -/
def hexDigit? (c : CodePoint) : Option Nat :=
  if 0x30 ≤ c.val && c.val ≤ 0x39 then some (c.val - 0x30)
  else if 0x61 ≤ c.val && c.val ≤ 0x66 then some (c.val - 0x57)
  else if 0x41 ≤ c.val && c.val ≤ 0x46 then some (c.val - 0x37)
  else none

end CodePoint

/-- A text: a list of code points. -/
abbrev Text := List CodePoint

namespace Text

/-- The text of a string. -/
def ofString (s : String) : Text :=
  s.toList.map CodePoint.ofChar

instance : Coe String Text := ⟨ofString⟩

/-- The string of a text; lone surrogates show as U+FFFD. -/
def toString (t : Text) : String :=
  String.ofList (t.map CodePoint.toChar)

/-- Whether some code point of the text is a lone surrogate. -/
def hasSurrogate (t : Text) : Bool :=
  t.any CodePoint.isSurrogate

/-- The order of texts: by the first code point that differs, a proper
beginning before what continues it. -/
def precedes : Text → Text → Bool
  | _, [] => false
  | [], _ :: _ => true
  | c :: s, d :: t => c.val < d.val || (c.val == d.val && precedes s t)

/-- Whether a text is one of several. -/
def isOneOf (t : Text) (ts : List Text) : Bool :=
  ts.any fun u => u = t

/-- The text without the code points at its end that satisfy `p`. -/
def dropTrailing (p : CodePoint → Bool) (t : Text) : Text :=
  (t.reverse.dropWhile p).reverse

/-- The text before and after the first occurrence of a code point. -/
def cutAt? (sep : CodePoint) : Text → Option (Text × Text)
  | [] => none
  | c :: t =>
    if c = sep then some ([], t)
    else (cutAt? sep t).map fun (before, after) => (c :: before, after)

/-- What follows a given beginning, if the text has it. -/
def dropStart? : (start t : Text) → Option Text
  | [], t => some t
  | _ :: _, [] => none
  | c :: start, d :: t => if c = d then dropStart? start t else none

/-- The decimal digits of a number, most significant first, in front of
`later`.  The fuel bounds the number of digits. -/
def digitsOnto : (fuel n : Nat) → (later : List Nat) → List Nat
  | 0, _, later => later
  | fuel + 1, n, later =>
    if n < 10 then n :: later else digitsOnto fuel (n / 10) (n % 10 :: later)

/-- The decimal digits of a number, most significant first. -/
def digits (n : Nat) : List Nat :=
  digitsOnto (n + 1) n []

/-- The code point of a digit below ten. -/
def digitPoint (d : Nat) : CodePoint :=
  CodePoint.ofNatOr (0x30 + d) '0'

/-- A natural number in decimal notation. -/
def ofNat (n : Nat) : Text :=
  (digits n).map digitPoint

/-- An integer in decimal notation. -/
def ofInt : Int → Text
  | .ofNat n => ofNat n
  | .negSucc n => (CodePoint.ofChar '-') :: ofNat (n + 1)

/-- The last `width` hexadecimal digits of a number, in lower case. -/
def hex : (width n : Nat) → Text
  | 0, _ => []
  | width + 1, n =>
    let d := n % 16
    hex width (n / 16) ++ [CodePoint.ofNatOr (if d < 10 then 0x30 + d else 0x57 + d) '0']

/-! ### Laws -/

/-- The test by code points decides membership in a list of texts. -/
theorem isOneOf_iff {t : Text} {ts : List Text} : t.isOneOf ts = true ↔ t ∈ ts := by
  simp [isOneOf]

/-- Dropping a start succeeds exactly on the texts that have it, and leaves the rest. -/
theorem dropStart?_eq_some_iff {start t rest : Text} :
    dropStart? start t = some rest ↔ start ++ rest = t := by
  induction start generalizing t with
  | nil => exact Option.some_inj.trans eq_comm
  | cons c start ih =>
      cases t with
      | nil => exact iff_of_false nofun nofun
      | cons d t =>
          rw [dropStart?, List.cons_append, List.cons.injEq]
          split
          · next hc => rw [ih, and_iff_right hc]
          · next hc => exact iff_of_false nofun fun h => hc h.1

/-- What is left after dropping trailing code points is a start of the text. -/
theorem dropTrailing_prefix (p : CodePoint → Bool) (t : Text) : dropTrailing p t <+: t := by
  rw [← List.reverse_suffix, dropTrailing, List.reverse_reverse]
  exact List.dropWhile_suffix p

/-- A first code point that is kept stays, whatever is dropped behind it. -/
theorem dropTrailing_cons_of_not {p : CodePoint → Bool} {c : CodePoint} (hc : p c = false)
    (t : Text) : dropTrailing p (c :: t) = c :: dropTrailing p t := by
  rw [dropTrailing, dropTrailing, List.reverse_cons, List.dropWhile_append]
  split
  · next hempty =>
      rw [List.isEmpty_iff.mp hempty, List.dropWhile_cons_of_neg (by simp [hc])]
      rfl
  · rw [List.reverse_append, List.reverse_singleton, List.singleton_append]

/-- Nothing is dropped from a text whose last code point is kept. -/
theorem dropTrailing_concat_of_not {p : CodePoint → Bool} {c : CodePoint} (hc : p c = false)
    (t : Text) : dropTrailing p (t ++ [c]) = t ++ [c] := by
  rw [dropTrailing, List.reverse_concat, List.dropWhile_cons_of_neg (by simp [hc]),
    List.reverse_cons, List.reverse_reverse]

end Text

end RecordLog
