import Mathlib.Data.List.Forall2
import RecordLog.Proofs.Json.Numbers
import RecordLog.Proofs.Json.Readable
import RecordLog.Proofs.Json.Strings
import RecordLog.Proofs.Json.Texts

/-!
# Written values read back

A text is written as a value if it reads as that value wherever it stands (`WrittenAs`).
The written forms of items and members are joined by separators, and reading them passes
from one separator to the next (`readItems_joined`, `readMembers_joined`).  What is written
for a value is written as it (`writtenAs_write`), by induction on the value, so a written
document reads back (`read_write`).

Where code points past ASCII are escaped, two lone halves of a pair, side by side, are written
like the pair itself, so there a value reads back only without such halves
(`read_write_ascii`).
-/

namespace RecordLog.Json

/-- What stands between parts. -/
def Style.comma : Text := ", "

/-- The styles with spaces after separators that leave members as they are. -/
def Style.spaced (asciiOnly : Bool) : Style := ⟨comma, ": ", asciiOnly, false⟩

/-! ### Starts -/

/-- Nothing is skipped in front of a visible code point. -/
theorem skipSpace_cons {c : CodePoint} (hc : isSpace c = false) (t : Text) :
    skipSpace (c :: t) = c :: t :=
  List.dropWhile_cons_of_neg (Bool.not_eq_true _ ▸ hc)

/-- One blank is skipped in front of a visible code point. -/
theorem skipSpace_space_cons {c : CodePoint} (hc : isSpace c = false) (t : Text) :
    skipSpace (CodePoint.ofChar ' ' :: c :: t) = c :: t :=
  skipSpace_cons hc t

/-- A text can start a value: not with white space, and not with what ends an array or marks
the order of octets. -/
def StartsValue (t : Text) : Prop :=
  ∃ c later, t = c :: later ∧ isSpace c = false ∧ c.val ≠ 0x5D ∧ c.val ≠ 0xFEFF

/-- What starts like a value does so in front of any text. -/
theorem StartsValue.append {t : Text} (h : StartsValue t) (rest : Text) :
    StartsValue (t ++ rest) := by
  obtain ⟨c, later, rfl, hc⟩ := h
  exact ⟨c, later ++ rest, rfl, hc⟩

/-- Joined parts start as the first part does. -/
theorem StartsValue.joined {w : Text} (h : StartsValue w) (separator : Text)
    (parts : List Text) : StartsValue (joined separator (w :: parts)) := by
  cases parts with
  | nil => exact h
  | cons p parts => exact (h.append separator).append _

/-- Only a blank in front of what starts like a value is skipped. -/
theorem StartsValue.skipSpace {t : Text} (h : StartsValue t) :
    skipSpace t = t ∧ skipSpace (CodePoint.ofChar ' ' :: t) = t := by
  obtain ⟨c, later, rfl, hc, _⟩ := h
  exact ⟨skipSpace_cons hc later, skipSpace_space_cons hc later⟩

/-- A text reads as a value wherever it stands.  Twice its length is enough fuel. -/
structure WrittenAs (v : Json) (w : Text) : Prop where
  starts : StartsValue w
  reads : ∀ fuel rest, 2 * w.length ≤ fuel → EndsNumber rest →
    readValue fuel (w ++ rest) = .ok (v, rest)

/-! ### Atoms and strings -/

/-- A text starts with a letter, a digit or a minus sign. -/
def StartsAtom (t : Text) : Prop :=
  ∃ c later, t = c :: later ∧ (0x2D ≤ c.val ∧ c.val < 0x5B ∨ 0x61 ≤ c.val ∧ c.val < 0x7B)

/-- What reads as an atom reads as a value. -/
theorem writtenAs_of_readAtom {v : Json} {w : Text} (hstarts : StartsAtom w)
    (hread : ∀ rest, EndsNumber rest → readAtom (w ++ rest) = .ok (v, rest)) :
    WrittenAs v w := by
  obtain ⟨c, later, rfl, hc⟩ := hstarts
  have hspace : isSpace c = false := by
    simp only [isSpace, Bool.or_eq_false_iff, beq_eq_false_iff_ne]
    omega
  refine ⟨⟨c, later, rfl, hspace, by omega, by omega⟩, ?_⟩
  intro fuel rest hfuel hrest
  obtain ⟨k, rfl⟩ : ∃ k, fuel = k + 1 := ⟨fuel - 1, by rw [List.length_cons] at hfuel; omega⟩
  rw [List.cons_append, readValue, if_neg (by omega), if_neg (by omega), if_neg (by omega)]
  exact hread rest hrest

theorem startsAtom_signed (negative : Bool) {t : Text} (h : StartsAtom t) :
    StartsAtom (Text.signed negative t) := by
  cases negative with
  | true => exact ⟨CodePoint.ofChar '-', t, rfl, by decide⟩
  | false => exact h

/-- A spelling starts like an atom. -/
theorem Spelling.startsAtom (sp : Spelling) : StartsAtom sp.text := by
  obtain ⟨d, t, hd, htext⟩ := sp.exists_text_eq
  refine ⟨Text.digitPoint d, t, htext, ?_⟩
  rw [val_digitPoint hd]
  omega

/-- An integer that can be read reads back. -/
theorem writtenAs_ofInt {n : Int} (hn : Readable (int n)) : WrittenAs (int n) (Text.ofInt n) := by
  refine writtenAs_of_readAtom ?_ fun rest hrest => readAtom_ofInt hn hrest
  rw [ofInt_eq_signed]
  exact startsAtom_signed _ (Spelling.startsAtom _)

/-- A double reads back, with the words for those that are not finite. -/
theorem writtenAs_render (x : Double) : WrittenAs (float x) (x.render doubleWords) := by
  refine writtenAs_of_readAtom ?_ fun rest hrest => readAtom_render x hrest
  cases x with
  | nan => exact ⟨CodePoint.ofChar 'N', _, rfl, by decide⟩
  | infinite negative =>
      exact startsAtom_signed negative ⟨CodePoint.ofChar 'I', _, rfl, by decide⟩
  | finite negative m =>
      obtain ⟨sp, _, htext, _⟩ := exists_spelling (Decimal.shortest m)
      rw [Double.render, htext]
      exact startsAtom_signed negative sp.startsAtom

section

variable {asciiOnly : Bool}

/-- A written string in front of a text is its quotes, its code points and the text. -/
theorem writeString_append (t rest : Text) :
    writeString asciiOnly t ++ rest = CodePoint.ofChar '\x22' ::
      (t.flatMap (escaped asciiOnly) ++ CodePoint.ofChar '\x22' :: rest) := by
  rw [writeString, List.cons_append, List.cons_append, List.append_assoc, List.singleton_append]

/-- The fuel that a reader gives for a string is enough. -/
theorem readString_written {t : Text} (ht : asciiOnly = true → PairsJoined t) (rest : Text) :
    readString ((t.flatMap (escaped asciiOnly) ++ CodePoint.ofChar '\x22' :: rest).length + 1)
      (t.flatMap (escaped asciiOnly) ++ CodePoint.ofChar '\x22' :: rest) = .ok (t, rest) := by
  refine readString_body ht ?_ rest
  have hlength := length_le_length_flatMap_escaped asciiOnly t
  rw [List.length_append]
  omega

/-- A string reads back if, where halves of pairs are escaped, its halves are joined. -/
theorem writtenAs_writeString {t : Text} (ht : asciiOnly = true → PairsJoined t) :
    WrittenAs (str t) (writeString asciiOnly t) := by
  refine ⟨⟨CodePoint.ofChar '\x22', _, rfl, by decide⟩, ?_⟩
  intro fuel rest hfuel _
  obtain ⟨k, rfl⟩ : ∃ k, fuel = k + 1 := by
    refine ⟨fuel - 1, ?_⟩
    rw [writeString, List.length_append, List.length_singleton] at hfuel
    omega
  have hquote : (CodePoint.ofChar '\x22').val = 0x22 := rfl
  rw [writeString_append, readValue, if_pos hquote, readString_written ht]

/-! ### Items -/

/-- A number ends in front of any mark that continues none. -/
theorem endsNumber_cons {c : Char} (t : Text)
    (hc : (CodePoint.ofChar c).asciiDigit? = none ∧ c.toNat ≠ 0x2E ∧ c.toNat ≠ 0x65 ∧
      c.toNat ≠ 0x45) : EndsNumber (CodePoint.ofChar c :: t) := by
  rintro _ ⟨⟩
  exact hc

/-- Joined parts, of which there are at least two, up to the separator and past it. -/
theorem joined_cons_append (w p : Text) (parts : List Text) (rest : Text) :
    joined Style.comma (w :: p :: parts) ++ rest =
      w ++ CodePoint.ofChar ',' :: CodePoint.ofChar ' ' ::
        (joined Style.comma (p :: parts) ++ rest) := by
  rw [joined, List.append_assoc, List.append_assoc]
  rfl

/-- Each further part adds its length and a separator. -/
theorem length_joined_cons (w p : Text) (parts : List Text) :
    (joined Style.comma (w :: p :: parts)).length =
      w.length + 2 + (joined Style.comma (p :: parts)).length := by
  rw [joined, List.length_append, List.length_append]
  rfl

/-- Joined items read one after the other, up to the bracket. -/
theorem readItems_joined {items : List Json} {parts : List Text}
    (h : List.Forall₂ WrittenAs items parts) (hne : items ≠ []) (fuel : Nat) (rest : Text)
    (hfuel : 2 * (joined Style.comma parts).length + 1 ≤ fuel) :
    readItems fuel (joined Style.comma parts ++ CodePoint.ofChar ']' :: rest) =
      .ok (items, rest) := by
  induction h generalizing fuel with
  | nil => exact absurd rfl hne
  | @cons v w items parts hv hlater ih =>
      obtain ⟨k, rfl⟩ : ∃ k, fuel = k + 1 := ⟨fuel - 1, by omega⟩
      cases hlater with
      | nil =>
          have hbracket : EndsNumber (CodePoint.ofChar ']' :: rest) :=
            endsNumber_cons rest (by decide)
          have hclosing : (CodePoint.ofChar ']').val = 0x5D := rfl
          rw [joined] at hfuel ⊢
          rw [readItems, hv.reads k _ (by omega) hbracket]
          simp only [skipSpace_cons (c := CodePoint.ofChar ']') rfl, if_pos hclosing]
      | @cons u p items parts hu hlater =>
          have hcomma : ∀ t, EndsNumber (CodePoint.ofChar ',' :: t) :=
            fun t => endsNumber_cons t (by decide)
          have hnot : ¬ (CodePoint.ofChar ',').val = 0x5D := by decide
          have hmark : (CodePoint.ofChar ',').val = 0x2C := rfl
          have hspace := ((hu.starts.joined Style.comma parts).append
            (CodePoint.ofChar ']' :: rest)).skipSpace.2
          rw [length_joined_cons] at hfuel
          have hrest : readItems k (joined Style.comma (p :: parts) ++
              CodePoint.ofChar ']' :: rest) = .ok (u :: items, rest) :=
            ih (List.cons_ne_nil u items) k (by omega)
          rw [joined_cons_append, readItems, hv.reads k _ (by omega) (hcomma _)]
          simp only [skipSpace_cons (c := CodePoint.ofChar ',') rfl, if_neg hnot, if_pos hmark,
            hspace, hrest]

/-! ### Members -/

/-- A key and a written value, as they stand in an object. -/
def memberText (asciiOnly : Bool) (m : Text × Text) : Text :=
  writeString asciiOnly m.1 ++ (Style.spaced asciiOnly).keySeparator ++ m.2

/-- A member in front of a text is its key, a colon, its value and the text. -/
theorem memberText_append (m : Text × Text) (rest : Text) :
    memberText asciiOnly m ++ rest = CodePoint.ofChar '\x22' ::
      (m.1.flatMap (escaped asciiOnly) ++ CodePoint.ofChar '\x22' :: CodePoint.ofChar ':' ::
        CodePoint.ofChar ' ' :: (m.2 ++ rest)) := by
  rw [memberText, List.append_assoc, List.append_assoc, writeString_append]
  rfl

/-- A member starts with its key's quote. -/
theorem startsValue_memberText (asciiOnly : Bool) (m : Text × Text) :
    StartsValue (memberText asciiOnly m) :=
  ⟨CodePoint.ofChar '\x22', _, rfl, by decide⟩

/-- A member is no shorter than its value. -/
theorem length_le_length_memberText (asciiOnly : Bool) (k w : Text) :
    w.length ≤ (memberText asciiOnly (k, w)).length := by
  rw [memberText, List.length_append]
  exact Nat.le_add_left _ _

/-- A member is written with its key and its value. -/
def MemberWrittenAs (asciiOnly : Bool) (m : Text × Json) (w : Text × Text) : Prop :=
  m.1 = w.1 ∧ (asciiOnly = true → PairsJoined m.1) ∧ WrittenAs m.2 w.2

/-- Joined members read one after the other, up to the brace. -/
theorem readMembers_joined {members : Members} {parts : List (Text × Text)}
    (h : List.Forall₂ (MemberWrittenAs asciiOnly) members parts) (hne : members ≠ []) (fuel : Nat)
    (rest : Text)
    (hfuel : 2 * (joined Style.comma (parts.map (memberText asciiOnly))).length + 1 ≤ fuel) :
    readMembers fuel (joined Style.comma (parts.map (memberText asciiOnly)) ++
      CodePoint.ofChar '\x7D' :: rest) = .ok (members, rest) := by
  induction h generalizing fuel with
  | nil => exact absurd rfl hne
  | @cons m w members parts hm hlater ih =>
      obtain ⟨k, rfl⟩ : ∃ k, fuel = k + 1 := ⟨fuel - 1, by omega⟩
      obtain ⟨key, v⟩ := m
      obtain ⟨key', w⟩ := w
      obtain ⟨(rfl : key = key'), hkey, (hv : WrittenAs v w)⟩ := hm
      have hquote : ¬ (CodePoint.ofChar '\x22').val ≠ 0x22 := by decide
      have hcolon : ¬ (CodePoint.ofChar ':').val ≠ 0x3A := by decide
      have hwritten := fun t => (hv.starts.append t).skipSpace.2
      have hlength := length_le_length_memberText asciiOnly key w
      cases hlater with
      | nil =>
          have hbrace : EndsNumber (CodePoint.ofChar '\x7D' :: rest) :=
            endsNumber_cons rest (by decide)
          have hclosing : (CodePoint.ofChar '\x7D').val = 0x7D := rfl
          rw [List.map_singleton, joined] at hfuel ⊢
          rw [memberText_append, readMembers, if_neg hquote, readString_written hkey]
          simp only [skipSpace_cons (c := CodePoint.ofChar ':') rfl, if_neg hcolon, hwritten,
            hv.reads k _ (by omega) hbrace, skipSpace_cons (c := CodePoint.ofChar '\x7D') rfl,
            if_pos hclosing]
      | @cons n p members parts hn hlater =>
          have hcomma : ∀ t, EndsNumber (CodePoint.ofChar ',' :: t) :=
            fun t => endsNumber_cons t (by decide)
          have hnot : ¬ (CodePoint.ofChar ',').val = 0x7D := by decide
          have hmark : (CodePoint.ofChar ',').val = 0x2C := rfl
          have hspace := (((startsValue_memberText asciiOnly p).joined Style.comma
            (parts.map (memberText asciiOnly))).append
              (CodePoint.ofChar '\x7D' :: rest)).skipSpace.2
          rw [List.map_cons, List.map_cons, length_joined_cons] at hfuel
          have hrest : readMembers k (joined Style.comma
              (memberText asciiOnly p :: parts.map (memberText asciiOnly)) ++
                CodePoint.ofChar '\x7D' :: rest) = .ok (n :: members, rest) :=
            ih (List.cons_ne_nil n members) k (by rw [List.map_cons]; omega)
          rw [List.map_cons, List.map_cons, joined_cons_append, memberText_append, readMembers,
            if_neg hquote, readString_written hkey]
          simp only [skipSpace_cons (c := CodePoint.ofChar ':') rfl, if_neg hcolon, hwritten,
            hv.reads k _ (by omega) (hcomma _), skipSpace_cons (c := CodePoint.ofChar ',') rfl,
            if_neg hnot, if_pos hmark, hspace, hrest]

/-! ### Values -/

theorem bracketed_append (opening closing : Char) (separator : Text) (parts : List Text)
    (rest : Text) :
    bracketed opening closing separator parts ++ rest =
      CodePoint.ofChar opening :: (joined separator parts ++ CodePoint.ofChar closing :: rest) := by
  rw [bracketed, List.cons_append, List.cons_append, List.append_assoc, List.singleton_append]

theorem length_bracketed (opening closing : Char) (separator : Text) (parts : List Text) :
    (bracketed opening closing separator parts).length = (joined separator parts).length + 2 := by
  rw [bracketed, List.length_append, List.length_cons, List.length_singleton]

/-- An array reads back if its items do. -/
theorem writtenAs_arr {items : List Json} {parts : List Text}
    (h : List.Forall₂ WrittenAs items parts) :
    WrittenAs (arr items) (bracketed '[' ']' Style.comma parts) := by
  refine ⟨⟨CodePoint.ofChar '[', _, rfl, by decide⟩, ?_⟩
  intro fuel rest hfuel _
  rw [length_bracketed] at hfuel
  obtain ⟨k, rfl⟩ : ∃ k, fuel = k + 1 := ⟨fuel - 1, by omega⟩
  have hquote : ¬ (CodePoint.ofChar '[').val = 0x22 := by decide
  have hopening : (CodePoint.ofChar '[').val = 0x5B := rfl
  rw [bracketed_append, readValue, if_neg hquote, if_pos hopening]
  cases h with
  | nil => rfl
  | @cons v w items parts hv hlater =>
      have hitems : readItems k (joined Style.comma (w :: parts) ++
          CodePoint.ofChar ']' :: rest) = .ok (v :: items, rest) :=
        readItems_joined (.cons hv hlater) (List.cons_ne_nil v items) k rest (by omega)
      obtain ⟨c, later, htext, hc, hclosing, _⟩ :=
        (hv.starts.joined Style.comma parts).append (CodePoint.ofChar ']' :: rest)
      rw [htext] at hitems ⊢
      simp only [skipSpace_cons hc, if_neg hclosing, hitems]

/-- An object reads back if its members do. -/
theorem writtenAs_obj {members : Members} (hkeys : (Members.keys members).Nodup)
    {parts : List (Text × Text)} (h : List.Forall₂ (MemberWrittenAs asciiOnly) members parts) :
    WrittenAs (obj members)
      (bracketed '\x7B' '\x7D' Style.comma (arranged (.spaced asciiOnly) parts)) := by
  have harranged : arranged (.spaced asciiOnly) parts = parts.map (memberText asciiOnly) := rfl
  refine ⟨⟨CodePoint.ofChar '\x7B', _, rfl, by decide⟩, ?_⟩
  intro fuel rest hfuel _
  rw [harranged, length_bracketed] at hfuel
  obtain ⟨k, rfl⟩ : ∃ k, fuel = k + 1 := ⟨fuel - 1, by omega⟩
  have hquote : ¬ (CodePoint.ofChar '\x7B').val = 0x22 := by decide
  have hbracket : ¬ (CodePoint.ofChar '\x7B').val = 0x5B := by decide
  have hopening : (CodePoint.ofChar '\x7B').val = 0x7B := rfl
  rw [harranged, bracketed_append, readValue, if_neg hquote, if_neg hbracket, if_pos hopening]
  cases h with
  | nil => rfl
  | @cons m w members parts hm hlater =>
      have hmembers := readMembers_joined (.cons hm hlater) (List.cons_ne_nil m members) k rest
        (by omega)
      have htext : ∃ later, joined Style.comma ((w :: parts).map (memberText asciiOnly)) ++
          CodePoint.ofChar '\x7D' :: rest = CodePoint.ofChar '\x22' :: later := by
        cases parts <;> exact ⟨_, rfl⟩
      obtain ⟨later, htext⟩ := htext
      have hclosing : ¬ (CodePoint.ofChar '\x22').val = 0x7D := by decide
      rw [htext] at hmembers ⊢
      simp only [skipSpace_cons (c := CodePoint.ofChar '\x22') rfl, if_neg hclosing, hmembers,
        Members.ofList_eq_self hkeys]

mutual

/-- What is written for a value is written as it, if nothing in it is escaped that would be
joined. -/
theorem writtenAs_write : ∀ {v : Json}, Readable v →
    (asciiOnly = true → EachText PairsJoined v) → WrittenAs v (write (.spaced asciiOnly) v)
  | null, _, _ => writtenAs_of_readAtom ⟨CodePoint.ofChar 'n', _, rfl, by decide⟩ fun _ _ => rfl
  | bool true, _, _ =>
    writtenAs_of_readAtom ⟨CodePoint.ofChar 't', _, rfl, by decide⟩ fun _ _ => rfl
  | bool false, _, _ =>
    writtenAs_of_readAtom ⟨CodePoint.ofChar 'f', _, rfl, by decide⟩ fun _ _ => rfl
  | int _, h, _ => writtenAs_ofInt h
  | float x, _, _ => writtenAs_render x
  | str _, _, ht => writtenAs_writeString ht
  | arr _, h, ht => writtenAs_arr (forall₂_writeItems h ht)
  | obj _, h, ht => writtenAs_obj h.1 (forall₂_writeMembers h.2 ht)

/-- Items that can be read are written to be read back. -/
theorem forall₂_writeItems : ∀ {items : List Json}, ReadableItems items →
    (asciiOnly = true → EachItemText PairsJoined items) →
      List.Forall₂ WrittenAs items (writeItems (.spaced asciiOnly) items)
  | [], _, _ => .nil
  | _ :: _, h, ht =>
    .cons (writtenAs_write h.1 fun hascii => (ht hascii).1)
      (forall₂_writeItems h.2 fun hascii => (ht hascii).2)

theorem forall₂_writeMembers : ∀ {members : Members}, ReadableMembers members →
    (asciiOnly = true → EachMemberText PairsJoined members) →
      List.Forall₂ (MemberWrittenAs asciiOnly) members (writeMembers (.spaced asciiOnly) members)
  | [], _, _ => .nil
  | _ :: _, h, ht =>
    .cons ⟨rfl, fun hascii => (ht hascii).1, writtenAs_write h.1 fun hascii => (ht hascii).2.1⟩
      (forall₂_writeMembers h.2 fun hascii => (ht hascii).2.2)

end

end

/-- **A written value reads back**, if it is not escaped, or has no halves of pairs side by
side. -/
theorem read_write_spaced {v : Json} (h : Readable v) (asciiOnly : Bool)
    (ht : asciiOnly = true → EachText PairsJoined v) :
    read (write (.spaced asciiOnly) v) = .ok v := by
  have hwritten := writtenAs_write h ht
  obtain ⟨c, later, htext, hspace, _, hmark⟩ := hwritten.starts
  have hread := hwritten.reads (2 * (write (.spaced asciiOnly) v).length + 2) [] (by omega)
    (fun _ => nofun)
  rw [List.append_nil, htext] at hread
  rw [htext, read]
  simp only [if_neg hmark, skipSpace_cons hspace, hread]
  rfl

/-- A value that can be read reads back from Unicode text. -/
theorem read_write {v : Json} (h : Readable v) : read (write .unicode v) = .ok v :=
  read_write_spaced h false fun hascii => absurd hascii Bool.false_ne_true

/-- A value that can be read reads back from ASCII text, if its halves are joined. -/
theorem read_write_ascii {v : Json} (h : Readable v) (ht : EachText PairsJoined v) :
    read (write .ascii v) = .ok v :=
  read_write_spaced h true fun _ => ht

/-- No two readable values are written alike. -/
theorem write_injective {v w : Json} (hv : Readable v) (hw : Readable w)
    (h : write .unicode v = write .unicode w) : v = w := by
  have hread := read_write hv
  rw [h, read_write hw] at hread
  exact (Except.ok.inj hread).symm

end RecordLog.Json
