import Mathlib.Data.List.Chain
import RecordLog.Json.Reader
import RecordLog.Json.Writer

/-!
# Written strings read back

A string is written code point by code point, and each stands in one of a few ways (`Stands`):
as itself, after a backslash as the letter for it, as its number, or as the numbers of the two
halves of a pair.  From each of them the reader takes the code point back, whatever follows it,
with one exception: the number of a first half is taken together with that of a second half
right behind it (`Stands.readString`).

Numbers past the control characters are written only where code points past ASCII are escaped.
So a written body reads back as a whole, if it is not escaped or has no two halves side by side
(`readString_body`).

None of the ways holds a control character, so no line feed is written: a written string is
made of printable ASCII and of its own code points (`madeOf_writeString`).
-/

namespace RecordLog

/-- A text holds no control character. -/
def ControlFree (t : Text) : Prop :=
  ∀ c ∈ t, 0x20 ≤ c.val

/-- A code point is printable ASCII. -/
def CodePoint.IsPrintableAscii (c : CodePoint) : Prop :=
  0x20 ≤ c.val ∧ c.val < 0x7F

instance : DecidablePred CodePoint.IsPrintableAscii := fun c =>
  inferInstanceAs (Decidable (0x20 ≤ c.val ∧ c.val < 0x7F))

/-- No surrogate is printable ASCII. -/
theorem CodePoint.IsPrintableAscii.not_isSurrogate {c : CodePoint} (h : c.IsPrintableAscii) :
    ¬ c.isSurrogate := by
  rw [isSurrogate, Bool.and_eq_true, decide_eq_true_iff, decide_eq_true_iff]
  have hlt := h.2
  omega

/-- A text is made of printable ASCII, and of other code points with a property that are no
control characters either. -/
def MadeOf (P : CodePoint → Prop) (t : Text) : Prop :=
  ∀ c ∈ t, c.IsPrintableAscii ∨ 0x20 ≤ c.val ∧ P c

namespace MadeOf

variable {P : CodePoint → Prop}

/-- A text in printable ASCII is made of code points of any kind. -/
theorem of_ascii {t : Text} (h : ∀ c ∈ t, c.IsPrintableAscii) : MadeOf P t :=
  fun c hc => .inl (h c hc)

theorem nil : MadeOf P [] :=
  List.forall_mem_nil _

theorem cons {c : CodePoint} {t : Text} (hc : c.IsPrintableAscii) (ht : MadeOf P t) :
    MadeOf P (c :: t) :=
  List.forall_mem_cons.mpr ⟨.inl hc, ht⟩

/-- Texts of a kind make a text of that kind. -/
theorem append {s t : Text} (hs : MadeOf P s) (ht : MadeOf P t) : MadeOf P (s ++ t) :=
  List.forall_mem_append.mpr ⟨hs, ht⟩

/-- A text made of printable code points holds no control character, if its kind has none. -/
theorem controlFree {t : Text} (h : MadeOf P t) : ControlFree t := fun c hc =>
  (h c hc).elim (fun hascii => hascii.1) fun hother => hother.1

/-- A text made of printable code points and others that are no surrogates holds none. -/
theorem surrogateFree {t : Text} (h : MadeOf (fun c => ¬ c.isSurrogate) t) :
    ∀ c ∈ t, ¬ c.isSurrogate := fun c hc =>
  (h c hc).elim (fun hascii => hascii.not_isSurrogate) fun hother => hother.2

end MadeOf

namespace Json

/-- A code point is the character with its number. -/
theorem eq_ofChar {c : CodePoint} {d : Char} (h : c.val = d.toNat) : c = CodePoint.ofChar d := by
  cases c
  cases h
  rfl

theorem isHighHalf_iff {n : Nat} : isHighHalf n = true ↔ 0xD800 ≤ n ∧ n ≤ 0xDBFF := by
  rw [isHighHalf, Bool.and_eq_true, decide_eq_true_iff, decide_eq_true_iff]

theorem isLowHalf_iff {n : Nat} : isLowHalf n = true ↔ 0xDC00 ≤ n ∧ n ≤ 0xDFFF := by
  rw [isLowHalf, Bool.and_eq_true, decide_eq_true_iff, decide_eq_true_iff]

/-! ### Escapes -/

/-- A letter behind a backslash stands for something only if it is ASCII. -/
theorem lt_of_shortEscape? {l c : CodePoint} (h : shortEscape? l = some c) : l.val < 0x7F := by
  simp only [shortEscape?, Bool.or_eq_true, decide_eq_true_eq] at h
  grind

/-- A letter after a backslash gives the code point that it stands for. -/
theorem readString_letter {letter c : CodePoint} (hletter : letter.val ≠ 0x75)
    (hescape : shortEscape? letter = some c) (fuel : Nat) (t : Text) :
    readString (fuel + 1) (CodePoint.ofChar '\\' :: letter :: t) =
      pushPoint c (readString fuel t) := by
  have hquote : (CodePoint.ofChar '\\').val ≠ 0x22 := by decide
  have hbackslash : (CodePoint.ofChar '\\').val = 0x5C := rfl
  rw [readString.eq_def]
  simp only [if_neg hquote, if_pos hbackslash, if_neg hletter, hescape]

/-- The code point of a hexadecimal digit. -/
def hexPoint (d : Nat) : CodePoint :=
  CodePoint.ofNatOr (if d < 10 then 0x30 + d else 0x57 + d) '0'

/-- A hexadecimal digit that was written reads back. -/
theorem hexDigit?_hexPoint : ∀ d < 16, (hexPoint d).hexDigit? = some d := by
  decide

/-- A hexadecimal digit is printable. -/
theorem isPrintableAscii_hexPoint : ∀ d < 16, (hexPoint d).IsPrintableAscii := by
  decide

/-- A number of sixteen bits reads back from its four digits. -/
theorem hexQuad?_hexPoint {n : Nat} (hn : n < 0x10000) :
    hexQuad? (hexPoint (n / 16 / 16 / 16 % 16)) (hexPoint (n / 16 / 16 % 16))
      (hexPoint (n / 16 % 16)) (hexPoint (n % 16)) = some n := by
  have hdigit : ∀ k, (hexPoint (k % 16)).hexDigit? = some (k % 16) :=
    fun k => hexDigit?_hexPoint _ (Nat.mod_lt k (by decide))
  rw [hexQuad?]
  simp only [hdigit, Option.some.injEq]
  omega

/-- An escape in front of a text is a backslash, its letter, four digits and the text. -/
theorem unitEscape_append (n : Nat) (t : Text) :
    unitEscape n ++ t = CodePoint.ofChar '\\' :: CodePoint.ofChar 'u' ::
      hexPoint (n / 16 / 16 / 16 % 16) :: hexPoint (n / 16 / 16 % 16) ::
        hexPoint (n / 16 % 16) :: hexPoint (n % 16) :: t := rfl

/-- An escape is seen as one, with its number. -/
theorem follower_unitEscape {n : Nat} (hn : n < 0x10000) (x : CodePoint) (rest : Text) :
    follower (unitEscape n ++ x :: rest) = .escape n (x :: rest) := by
  have hunit : (CodePoint.ofChar '\\').val = 0x5C ∧ (CodePoint.ofChar 'u').val = 0x75 := ⟨rfl, rfl⟩
  rw [unitEscape_append]
  simp only [follower, if_pos hunit, hexQuad?_hexPoint hn]

/-- What follows a first half leaves it alone: it is no escape, or not that of a second half. -/
def Lone (t : Text) : Prop :=
  follower t = .other ∨ ∃ m after, follower t = .escape m after ∧ isLowHalf m = false

/-- A half is left alone by what is no escape. -/
theorem lone_of_ne_backslash {c : CodePoint} (hc : c.val ≠ 0x5C) (t : Text) : Lone (c :: t) := by
  left
  unfold follower
  split
  · next heq =>
      obtain ⟨rfl, -⟩ := List.cons.inj heq
      exact if_neg fun h => hc h.1
  · rfl

/-- A half is left alone by a letter behind a backslash. -/
theorem lone_of_letter {b l : CodePoint} (hl : l.val ≠ 0x75) (t : Text) : Lone (b :: l :: t) := by
  left
  unfold follower
  split
  · next heq =>
      obtain ⟨-, heq⟩ := List.cons.inj heq
      obtain ⟨rfl, -⟩ := List.cons.inj heq
      exact if_neg fun h => hl h.2
  · rfl

/-- Four digits after a backslash and the letter for them give the code point with that
number, unless it is the first half of a pair and the second half follows. -/
theorem readString_unitEscape {c x : CodePoint} {rest : Text} (hc : c.val < 0x10000)
    (hhalf : isHighHalf c.val = true → Lone (x :: rest)) (fuel : Nat) :
    readString (fuel + 1) (unitEscape c.val ++ x :: rest) =
      pushPoint c (readString fuel (x :: rest)) := by
  have hquote : (CodePoint.ofChar '\\').val ≠ 0x22 := by decide
  have hbackslash : (CodePoint.ofChar '\\').val = 0x5C := rfl
  have hunit : (CodePoint.ofChar 'u').val = 0x75 := rfl
  have hpoint : CodePoint.ofNatOr c.val '\uFFFD' = c := dif_pos c.isLt
  rw [unitEscape_append, readString.eq_def]
  simp only [if_neg hquote, if_pos hbackslash, if_pos hunit, hexQuad?_hexPoint hc, hpoint]
  by_cases hhigh : isHighHalf c.val = true
  · rcases hhalf hhigh with hother | ⟨m, after, hescape, hlow⟩
    · simp only [if_pos hhigh, hother]
    · simp only [if_pos hhigh, hescape, hlow, Bool.false_eq_true, if_false]
  · rw [if_neg hhigh]

/-- The digits of a first half and the escape of a second half behind them give the code point
of the pair. -/
theorem readString_halves {n m : Nat} {x : CodePoint} {rest after : Text} (hn : n < 0x10000)
    (hhigh : isHighHalf n = true) (hfollower : follower (x :: rest) = .escape m after)
    (hlow : isLowHalf m = true) (fuel : Nat) :
    readString (fuel + 1) (unitEscape n ++ x :: rest) =
      pushPoint (pairPoint n m) (readString fuel after) := by
  have hquote : (CodePoint.ofChar '\\').val ≠ 0x22 := by decide
  have hbackslash : (CodePoint.ofChar '\\').val = 0x5C := rfl
  have hunit : (CodePoint.ofChar 'u').val = 0x75 := rfl
  rw [unitEscape_append, readString.eq_def]
  simp only [if_neg hquote, if_pos hbackslash, if_pos hunit, hexQuad?_hexPoint hn, if_pos hhigh,
    hfollower, if_pos hlow]

/-- The escapes of two halves give the code point of the pair. -/
theorem readString_pair {c x : CodePoint} (hc : 0x10000 ≤ c.val) (fuel : Nat) (rest : Text) :
    readString (fuel + 1) (numberEscape c ++ x :: rest) =
      pushPoint c (readString fuel (x :: rest)) := by
  have hlt := c.isLt
  have hhigh : isHighHalf (0xD800 + (c.val - 0x10000) / 0x400) = true :=
    isHighHalf_iff.mpr (by omega)
  have hlow : isLowHalf (0xDC00 + (c.val - 0x10000) % 0x400) = true :=
    isLowHalf_iff.mpr (by omega)
  have hpair : pairPoint (0xD800 + (c.val - 0x10000) / 0x400)
      (0xDC00 + (c.val - 0x10000) % 0x400) = c := by
    have hval : 0x10000 + (0xD800 + (c.val - 0x10000) / 0x400 - 0xD800) * 0x400 +
        (0xDC00 + (c.val - 0x10000) % 0x400 - 0xDC00) = c.val := by omega
    rw [pairPoint, hval]
    exact dif_pos hlt
  have hnumber : numberEscape c ++ x :: rest =
      unitEscape (0xD800 + (c.val - 0x10000) / 0x400) ++
        (unitEscape (0xDC00 + (c.val - 0x10000) % 0x400) ++ x :: rest) := by
    rw [numberEscape, if_neg (Nat.not_lt.mpr hc), List.append_assoc]
  have hfollower := follower_unitEscape (n := 0xDC00 + (c.val - 0x10000) % 0x400) (by omega) x rest
  obtain ⟨y, later, hsecond⟩ : ∃ y later,
      unitEscape (0xDC00 + (c.val - 0x10000) % 0x400) ++ x :: rest = y :: later := ⟨_, _, rfl⟩
  rw [hsecond] at hfollower
  rw [hnumber, hsecond, readString_halves (by omega) hhigh hfollower hlow, hpair]

/-! ### Code points -/

/-- The ways in which a code point stands in a string, where everything past ASCII is escaped or
not. -/
inductive Stands (asciiOnly : Bool) (c : CodePoint) : Text → Prop
  /-- As a letter that stands for it, after a backslash. -/
  | letter {l : CodePoint} (hl : l.val ≠ 0x75) (hspace : 0x20 ≤ l.val)
      (hescape : shortEscape? l = some c) : Stands asciiOnly c [CodePoint.ofChar '\\', l]
  /-- As its number.  Only where everything past ASCII is escaped can it be half of a pair. -/
  | digits (hc : c.val < 0x10000) (hascii : asciiOnly = false → c.val < 0x20) :
      Stands asciiOnly c (unitEscape c.val)
  /-- As the numbers of the two halves of a pair. -/
  | pair (hc : 0x10000 ≤ c.val) : Stands asciiOnly c (numberEscape c)
  /-- As itself. -/
  | plain (hquote : c.val ≠ 0x22) (hbackslash : c.val ≠ 0x5C) (hspace : 0x20 ≤ c.val) :
      Stands asciiOnly c [c]

section

variable {asciiOnly : Bool} {c : CodePoint} {w : Text}

/-- A character with a letter of its own stands as that letter. -/
theorem stands_of_letter {l d : Char} (hl : l.toNat ≠ 0x75) (hspace : 0x20 ≤ l.toNat)
    (hescape : shortEscape? l = some (CodePoint.ofChar d)) (hc : c.val = d.toNat) :
    Stands asciiOnly c [CodePoint.ofChar '\\', CodePoint.ofChar l] := by
  cases eq_ofChar hc
  exact Stands.letter hl hspace hescape

/-- A code point stands as its number, or as those of its two halves. -/
theorem stands_numberEscape (h : asciiOnly = false → c.val < 0x20) :
    Stands asciiOnly c (numberEscape c) := by
  by_cases hc : c.val < 0x10000
  · rw [numberEscape, if_pos hc]
    exact .digits hc h
  · exact .pair (Nat.le_of_not_lt hc)

/-- A code point stands in a string as it is written there. -/
theorem stands_escaped (asciiOnly : Bool) (c : CodePoint) :
    Stands asciiOnly c (escaped asciiOnly c) := by
  rw [escaped]
  split
  · next h => exact stands_of_letter (l := '\x22') (by decide) (by decide) rfl h
  split
  · next h => exact stands_of_letter (l := '\\') (by decide) (by decide) rfl h
  split
  · next h => exact stands_of_letter (l := 'b') (d := '\x08') (by decide) (by decide) rfl h
  split
  · next h => exact stands_of_letter (l := 't') (d := '\t') (by decide) (by decide) rfl h
  split
  · next h => exact stands_of_letter (l := 'n') (d := '\n') (by decide) (by decide) rfl h
  split
  · next h => exact stands_of_letter (l := 'f') (d := '\x0C') (by decide) (by decide) rfl h
  split
  · next h => exact stands_of_letter (l := 'r') (d := '\r') (by decide) (by decide) rfl h
  split
  · next hnumber =>
      refine stands_numberEscape ?_
      rintro rfl
      simpa using hnumber
  · next hquote hbackslash _ _ _ _ _ hplain =>
      rw [Bool.or_eq_true, not_or, decide_eq_true_iff, Nat.not_lt] at hplain
      exact Stands.plain hquote hbackslash hplain.1

theorem Stands.ne_nil (h : Stands asciiOnly c w) : w ≠ [] := by
  cases h with
  | pair hc =>
      rw [numberEscape, if_neg (Nat.not_lt.mpr hc)]
      exact List.cons_ne_nil _ _
  | _ => exact List.cons_ne_nil _ _

/-- An escape is printable ASCII. -/
theorem madeOf_unitEscape {P : CodePoint → Prop} (n : Nat) : MadeOf P (unitEscape n) := by
  have hdigit : ∀ k, (hexPoint (k % 16)).IsPrintableAscii :=
    fun k => isPrintableAscii_hexPoint _ (Nat.mod_lt k (by decide))
  have hdigits : MadeOf P (Text.hex 4 n) :=
    (((MadeOf.nil.cons (hdigit _)).cons (hdigit _)).cons (hdigit _)).cons (hdigit _)
  have htext : unitEscape n = CodePoint.ofChar '\\' :: CodePoint.ofChar 'u' :: Text.hex 4 n := rfl
  have hbackslash : (CodePoint.ofChar '\\').IsPrintableAscii := by decide
  have hunit : (CodePoint.ofChar 'u').IsPrintableAscii := by decide
  rw [htext]
  exact (hdigits.cons hunit).cons hbackslash

/-- A code point is written with printable ASCII and itself. -/
theorem Stands.madeOf {P : CodePoint → Prop} (h : Stands asciiOnly c w) (hc : P c) :
    MadeOf P w := by
  have hbackslash : (CodePoint.ofChar '\\').IsPrintableAscii := by decide
  cases h with
  | letter hl hspace hescape =>
      exact (MadeOf.nil.cons ⟨hspace, lt_of_shortEscape? hescape⟩).cons hbackslash
  | digits => exact madeOf_unitEscape c.val
  | pair hpair =>
      rw [numberEscape, if_neg (Nat.not_lt.mpr hpair)]
      exact (madeOf_unitEscape _).append (madeOf_unitEscape _)
  | plain hquote hbackslash hspace => exact List.forall_mem_singleton.mpr (.inr ⟨hspace, hc⟩)

/-- A code point reads back from where it stands, whatever follows it.  Something does: the
quote that ends the string.  A first half has to stay alone. -/
theorem Stands.readString (h : Stands asciiOnly c w) {x : CodePoint} {rest : Text}
    (hnext : asciiOnly = true → isHighHalf c.val = true → Lone (x :: rest)) (fuel : Nat) :
    readString (fuel + 1) (w ++ x :: rest) = pushPoint c (readString fuel (x :: rest)) := by
  cases h with
  | letter hl hspace hescape => exact readString_letter hl hescape fuel (x :: rest)
  | digits hc hascii =>
      refine readString_unitEscape hc (fun hhalf => hnext ?_ hhalf) fuel
      rw [← Bool.not_eq_false]
      intro hplain
      have hlow := hascii hplain
      have hhigh := isHighHalf_iff.mp hhalf
      omega
  | pair hc => exact readString_pair hc fuel rest
  | plain hquote hbackslash hspace =>
      rw [List.singleton_append, Json.readString.eq_def]
      simp only [if_neg hquote, if_neg hbackslash, if_neg (Nat.not_lt_of_le hspace)]

/-- What stands for anything but a second half leaves a first half in front of it alone. -/
theorem Stands.lone (h : Stands asciiOnly c w) (hlow : isLowHalf c.val = false) (x : CodePoint)
    (rest : Text) : Lone (w ++ x :: rest) := by
  cases h with
  | letter hl => exact lone_of_letter hl (x :: rest)
  | digits hc => exact .inr ⟨_, _, follower_unitEscape hc x rest, hlow⟩
  | pair hc =>
      have hlt := c.isLt
      have hhigh : isLowHalf (0xD800 + (c.val - 0x10000) / 0x400) = false := by
        rw [← Bool.not_eq_true, isLowHalf_iff]
        omega
      rw [numberEscape, if_neg (Nat.not_lt.mpr hc), List.append_assoc]
      exact .inr ⟨_, _, follower_unitEscape (by omega) _ _, hhigh⟩
  | plain hquote hbackslash => exact lone_of_ne_backslash hbackslash (x :: rest)

end

/-! ### Bodies -/

/-- No first half of a pair stands right in front of a second half. -/
def PairsJoined (t : Text) : Prop :=
  t.IsChain fun c d => isHighHalf c.val = true → isLowHalf d.val = false

/-- A string is no longer than it is written. -/
theorem length_le_length_flatMap_escaped (asciiOnly : Bool) (t : Text) :
    t.length ≤ (t.flatMap (escaped asciiOnly)).length := by
  induction t with
  | nil => exact Nat.le_refl 0
  | cons c t ih =>
      have hpos : 0 < (escaped asciiOnly c).length :=
        List.length_pos_iff.mpr (stands_escaped asciiOnly c).ne_nil
      rw [List.flatMap_cons, List.length_append, List.length_cons]
      omega

/-- A written body has something to read. -/
theorem exists_body_eq (asciiOnly : Bool) (t rest : Text) :
    ∃ x later, t.flatMap (escaped asciiOnly) ++ CodePoint.ofChar '\x22' :: rest = x :: later :=
  List.exists_cons_of_ne_nil (List.append_ne_nil_of_right_ne_nil _ (List.cons_ne_nil _ rest))

/-- A body that does not start with a second half leaves a first half in front of it alone. -/
theorem lone_body (asciiOnly : Bool) {t : Text} (ht : ∀ d ∈ t.head?, isLowHalf d.val = false)
    (rest : Text) : Lone (t.flatMap (escaped asciiOnly) ++ CodePoint.ofChar '\x22' :: rest) := by
  cases t with
  | nil => exact lone_of_ne_backslash (by decide) rest
  | cons d t =>
      obtain ⟨x, later, hnext⟩ := exists_body_eq asciiOnly t rest
      rw [List.flatMap_cons, List.append_assoc, hnext]
      exact (stands_escaped asciiOnly d).lone (ht d rfl) x later

/-- A written body reads back up to its closing quote, if nothing in it is escaped that would be
joined. -/
theorem readString_body {asciiOnly : Bool} {t : Text} (ht : asciiOnly = true → PairsJoined t)
    {fuel : Nat} (hfuel : t.length < fuel) (rest : Text) :
    readString fuel (t.flatMap (escaped asciiOnly) ++ CodePoint.ofChar '\x22' :: rest) =
      .ok (t, rest) := by
  induction t generalizing fuel with
  | nil =>
      obtain ⟨k, rfl⟩ : ∃ k, fuel = k + 1 := ⟨fuel - 1, by omega⟩
      rfl
  | cons c t ih =>
      rw [List.length_cons] at hfuel
      obtain ⟨k, rfl⟩ : ∃ k, fuel = k + 1 := ⟨fuel - 1, by omega⟩
      have hjoined := fun hascii => List.isChain_cons.mp (ht hascii)
      have hlone : asciiOnly = true → isHighHalf c.val = true →
          Lone (t.flatMap (escaped asciiOnly) ++ CodePoint.ofChar '\x22' :: rest) :=
        fun hascii hhalf => lone_body asciiOnly (fun d hd => (hjoined hascii).1 d hd hhalf) rest
      have hbody := ih (fun hascii => (hjoined hascii).2) (show t.length < k by omega)
      obtain ⟨x, later, hnext⟩ := exists_body_eq asciiOnly t rest
      rw [hnext] at hlone hbody
      rw [List.flatMap_cons, List.append_assoc, hnext,
        (stands_escaped asciiOnly c).readString hlone, hbody, pushPoint]

/-- A string is written with printable ASCII and its own code points. -/
theorem madeOf_writeString {P : CodePoint → Prop} (asciiOnly : Bool) {t : Text}
    (ht : ∀ c ∈ t, P c) : MadeOf P (writeString asciiOnly t) := by
  have hquote : (CodePoint.ofChar '\x22').IsPrintableAscii := by decide
  have hbody : MadeOf P (t.flatMap (escaped asciiOnly)) := by
    intro c hc
    obtain ⟨d, hd, hmem⟩ := List.mem_flatMap.mp hc
    exact (stands_escaped asciiOnly d).madeOf (ht d hd) c hmem
  exact (hbody.cons hquote).append (MadeOf.nil.cons hquote)

end Json

end RecordLog
