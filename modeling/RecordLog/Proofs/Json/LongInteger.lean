import RecordLog.Json.Reader
import RecordLog.Proofs.Number.Numerals

/-!
# Integers with too many digits

A document that breaks the grammar is refused with an offence.  There is one other
way in which reading stops: an integer of more digits than are taken.  It can only
happen to a text that holds so many digits in a row.

* `Reads` says of one reading that it leaves an end of the text, and stops for digits
  only in a text with a long row of them.  Readings are composed of readings of what is
  left, so there is one lemma for each function of the reader;
* `read_eq_tooManyDigits` is the conclusion for documents, and `read_onesDocument` shows
  that there are such documents: an object with an identity, and nothing wrong but the
  number of its digits.
-/

namespace RecordLog.Json

/-- The text holds more digits in a row than an integer may have. -/
def HoldsLongInteger (t : Text) : Prop :=
  ∃ digits : Text, digits <:+: t ∧ Numeral.digitLimit < digits.length ∧
    ∀ c ∈ digits, c.isAsciiDigit

/-- What the end of a text holds the text holds. -/
theorem HoldsLongInteger.of_suffix {s t : Text} (h : HoldsLongInteger s) (hs : s <:+ t) :
    HoldsLongInteger t := by
  obtain ⟨digits, hinfix, hrest⟩ := h
  exact ⟨digits, hinfix.trans hs.isInfix, hrest⟩

/-- A reading of a text leaves an end of it, and stops for digits only if the text has
too many in a row. -/
def Reads {α : Type} (t : Text) : Reading α → Prop
  | .ok (_, rest) => rest <:+ t
  | .error (.offence _) => True
  | .error .tooManyDigits => HoldsLongInteger t

namespace Reads

variable {α β : Type} {s t : Text} {r : Reading α}

/-- What is read from an end of a text is read from the text. -/
theorem of_suffix (h : Reads s r) (hs : s <:+ t) : Reads t r := by
  match r, h with
  | .ok (_, _), h => exact List.IsSuffix.trans h hs
  | .error (.offence _), _ => trivial
  | .error .tooManyDigits, h => exact HoldsLongInteger.of_suffix h hs

/-- What a reading leaves is an end of the text. -/
theorem of_ok (h : Reads t r) {a : α} {rest : Text} (hr : r = .ok (a, rest)) : rest <:+ t := by
  rw [hr] at h
  exact h

/-- A failed reading is passed on as it is. -/
theorem of_error (h : Reads t r) {e : ReadError} (hr : r = .error e) :
    Reads t (.error e : Reading β) := by
  rw [hr] at h
  cases e with
  | offence o => trivial
  | tooManyDigits => exact h

/-- A code point put in front of what was read does not change what is left. -/
theorem pushPoint {r : Reading Text} (h : Reads t r) (c : CodePoint) :
    Reads t (pushPoint c r) := by
  match r, h with
  | .ok (_, _), h => exact h
  | .error (.offence _), _ => trivial
  | .error .tooManyDigits, h => exact h

end Reads

theorem skipSpace_suffix (t : Text) : skipSpace t <:+ t :=
  List.dropWhile_suffix isSpace

/-- What is left once white space and one more code point are passed. -/
theorem suffix_of_skipSpace_eq {t rest after : Text} {c : CodePoint} (hrest : rest <:+ t)
    (h : skipSpace rest = c :: after) : after <:+ t := by
  have hafter : after <:+ skipSpace rest := h ▸ List.suffix_cons c after
  exact hafter.trans ((skipSpace_suffix rest).trans hrest)

/-! ### Strings -/

/-- What stands behind an escape is an end of the text. -/
theorem follower_suffix {t rest : Text} {n : Nat} (h : follower t = .escape n rest) :
    rest <:+ t := by
  unfold follower at h
  split at h
  · split at h
    · split at h
      · obtain ⟨_, rfl⟩ := Follower.escape.inj h
        exact ⟨[_, _, _, _, _, _], rfl⟩
      · cases h
    · cases h
  · cases h

/-- Reading a string leaves an end of the text, and never stops for digits. -/
theorem readString_reads (fuel : Nat) (t : Text) : Reads t (readString fuel t) := by
  fun_induction readString fuel t with
  | case3 fuel c t => exact List.suffix_cons c t
  | case7 fuel c _ _ e _ p q r s x rest n _ _ m after hfollower _ ih =>
      have hafter : after <:+ c :: e :: p :: q :: r :: s :: x :: rest :=
        (follower_suffix hfollower).trans ⟨[c, e, p, q, r, s], rfl⟩
      exact (ih.of_suffix hafter).pushPoint _
  | case8 fuel c _ _ e _ p q r s x rest n _ _ m after _ _ ih =>
      exact (ih.of_suffix ⟨[c, e, p, q, r, s], rfl⟩).pushPoint _
  | case9 fuel c _ _ e _ p q r s x rest n _ _ _ ih =>
      exact (ih.of_suffix ⟨[c, e, p, q, r, s], rfl⟩).pushPoint _
  | case10 fuel c _ _ e _ p q r s x rest n _ _ ih =>
      exact (ih.of_suffix ⟨[c, e, p, q, r, s], rfl⟩).pushPoint _
  | case13 fuel c _ _ e t _ d _ ih => exact (ih.of_suffix ⟨[c, e], rfl⟩).pushPoint d
  | case15 fuel c t _ _ _ ih => exact (ih.of_suffix (List.suffix_cons c t)).pushPoint c
  | _ => trivial

/-! ### Numbers -/

/-- A code point with the value of a digit is one. -/
theorem asciiDigit?_eq_some {c : CodePoint} {d : Nat} (h : c.asciiDigit? = some d) :
    c.isAsciiDigit := by
  unfold CodePoint.asciiDigit? at h
  split at h
  · next hc => exact hc
  · cases h

/-- The values that are cut off are those of a row of digits. -/
theorem exists_cutDigits_eq (t : Text) :
    ∃ digits : Text, t = digits ++ (cutDigits t).2 ∧
      digits.length = (cutDigits t).1.length ∧ ∀ c ∈ digits, c.isAsciiDigit := by
  induction t with
  | nil => exact ⟨[], rfl, rfl, nofun⟩
  | cons c t ih =>
      rw [cutDigits]
      cases hc : c.asciiDigit? with
      | none => exact ⟨[], rfl, rfl, nofun⟩
      | some d =>
          obtain ⟨digits, ht, hlength, hdigits⟩ := ih
          exact ⟨c :: digits, congrArg (c :: ·) ht, congrArg (· + 1) hlength,
            List.forall_mem_cons.mpr ⟨asciiDigit?_eq_some hc, hdigits⟩⟩

/-- What is cut off as a whole part are as many digits of the text. -/
theorem exists_cutWhole_eq (t : Text) :
    ∃ digits : Text, t = digits ++ (cutWhole t).2 ∧
      digits.length = (cutWhole t).1.length ∧ ∀ c ∈ digits, c.isAsciiDigit := by
  unfold cutWhole
  split
  · exact ⟨[], rfl, rfl, nofun⟩
  · next c rest =>
      split
      · next hzero =>
          exact ⟨[c], rfl, rfl, by simp [CodePoint.isAsciiDigit, hzero]⟩
      · exact exists_cutDigits_eq (c :: rest)

theorem cutDigits_suffix (t : Text) : (cutDigits t).2 <:+ t := by
  obtain ⟨digits, ht, _⟩ := exists_cutDigits_eq t
  exact ⟨digits, ht.symm⟩

theorem cutFraction_suffix (t : Text) : (cutFraction t).2 <:+ t := by
  unfold cutFraction
  split
  · exact List.suffix_refl _
  · next c rest =>
      have hsuffix := cutDigits_suffix rest
      split
      · split
        · exact List.suffix_refl _
        · next heq =>
            rw [heq] at hsuffix
            exact hsuffix.trans (List.suffix_cons c rest)
      · exact List.suffix_refl _

theorem cutExponent_suffix (t : Text) : (cutExponent t).2 <:+ t := by
  unfold cutExponent
  split
  · exact List.suffix_refl _
  · next c rest =>
      have hsuffix :=
        (cutDigits_suffix (Numeral.cutSign rest).2).trans (Numeral.cutSign_suffix rest)
      split
      · simp only
        split
        · exact List.suffix_refl _
        · next heq =>
            rw [heq] at hsuffix
            exact hsuffix.trans (List.suffix_cons c rest)
      · exact List.suffix_refl _

/-- An integer is refused only for the number of its digits. -/
theorem signedInt?_eq_none {negative : Bool} {ds : List Nat}
    (h : Numeral.signedInt? negative ds = none) : Numeral.digitLimit < ds.length := by
  unfold Numeral.signedInt? at h
  split at h
  · cases h
  · next hds => exact Nat.lt_of_not_le hds

/-- A number that is not read for its digits has too many in a row. -/
theorem readNumber_reads (t : Text) : Reads t (readNumber t) := by
  have hbody := Numeral.cutMinus_suffix t
  obtain ⟨digits, hdigits, hlength, hall⟩ := exists_cutWhole_eq (Numeral.cutMinus t).2
  unfold readNumber
  simp only
  split
  · trivial
  · next whole rest _ heq =>
      rw [heq] at hdigits hlength
      have hrest : (cutExponent (cutFraction rest).2).2 <:+ t := by
        have hwhole : rest <:+ (Numeral.cutMinus t).2 := ⟨digits, hdigits.symm⟩
        exact (cutExponent_suffix _).trans ((cutFraction_suffix rest).trans (hwhole.trans hbody))
      split
      · split
        · exact hrest
        · next hnone =>
            have hinfix : digits <:+: (Numeral.cutMinus t).2 := ⟨[], rest, hdigits.symm⟩
            refine ⟨digits, hinfix.trans hbody.isInfix, ?_, hall⟩
            rw [hlength]
            exact signedInt?_eq_none hnone
      · exact hrest

/-! ### Values -/

theorem dropStart?_suffix {start t rest : Text} (h : Text.dropStart? start t = some rest) :
    rest <:+ t :=
  ⟨start, Text.dropStart?_eq_some_iff.mp h⟩

theorem readWord?_suffix {t rest : Text} {v : Json} (h : readWord? t = some (v, rest)) :
    rest <:+ t := by
  obtain ⟨word, _, hword⟩ := List.exists_of_findSome?_eq_some h
  obtain ⟨_, hdrop, heq⟩ := Option.map_eq_some_iff.mp hword
  obtain ⟨_, rfl⟩ := Prod.mk.inj heq
  exact dropStart?_suffix hdrop

/-- An atom that is not read for its digits has too many in a row. -/
theorem readAtom_reads (t : Text) : Reads t (readAtom t) := by
  unfold readAtom
  split
  · next reading hword => exact readWord?_suffix hword
  · exact readNumber_reads t

/-- Readings with a given fuel. -/
structure ReadsWith (fuel : Nat) : Prop where
  value : ∀ t, Reads t (readValue fuel t)
  items : ∀ t, Reads t (readItems fuel t)
  members : ∀ t, Reads t (readMembers fuel t)

/-- With one more unit of fuel a value is read as its parts are. -/
theorem readValue_reads {fuel : Nat} (ih : ReadsWith fuel) (t : Text) :
    Reads t (readValue (fuel + 1) t) := by
  cases t with
  | nil => trivial
  | cons c t =>
      have htail : t <:+ c :: t := List.suffix_cons c t
      have hspace : skipSpace t <:+ c :: t := (skipSpace_suffix t).trans htail
      rw [readValue]
      split
      · have hstring := (readString_reads (t.length + 1) t).of_suffix htail
        split
        · next heq => exact hstring.of_ok heq
        · next heq => exact hstring.of_error heq
      · split
        · have hitems := (ih.items (skipSpace t)).of_suffix hspace
          simp only
          split
          · trivial
          · next d rest hd =>
              split
              · exact suffix_of_skipSpace_eq htail hd
              · split
                · next heq => exact hitems.of_ok heq
                · next heq => exact hitems.of_error heq
        · split
          · have hmembers := (ih.members (skipSpace t)).of_suffix hspace
            simp only
            split
            · trivial
            · next d rest hd =>
                split
                · exact suffix_of_skipSpace_eq htail hd
                · split
                  · next heq => exact hmembers.of_ok heq
                  · next heq => exact hmembers.of_error heq
          · exact readAtom_reads (c :: t)

/-- With one more unit of fuel items are read as the values among them are. -/
theorem readItems_reads {fuel : Nat} (ih : ReadsWith fuel) (t : Text) :
    Reads t (readItems (fuel + 1) t) := by
  have hvalue := ih.value t
  rw [readItems]
  split
  · next heq => exact hvalue.of_error heq
  · next v rest heq =>
      have hrest := hvalue.of_ok heq
      split
      · trivial
      · next c after hspace =>
          have hafter := suffix_of_skipSpace_eq hrest hspace
          have hlater := (ih.items (skipSpace after)).of_suffix
            ((skipSpace_suffix after).trans hafter)
          split
          · exact hafter
          · split
            · split
              · next heq => exact hlater.of_ok heq
              · next heq => exact hlater.of_error heq
            · trivial

/-- With one more unit of fuel members are read as the values among them are. -/
theorem readMembers_reads {fuel : Nat} (ih : ReadsWith fuel) (t : Text) :
    Reads t (readMembers (fuel + 1) t) := by
  cases t with
  | nil => trivial
  | cons q t =>
      have hkey := (readString_reads (t.length + 1) t).of_suffix (List.suffix_cons q t)
      rw [readMembers]
      split
      · trivial
      · split
        · next heq => exact hkey.of_error heq
        · next key rest heq =>
            have hrest := hkey.of_ok heq
            split
            · trivial
            · next colon start hcolon =>
                have hstart := suffix_of_skipSpace_eq hrest hcolon
                have hvalue := (ih.value (skipSpace start)).of_suffix
                  ((skipSpace_suffix start).trans hstart)
                split
                · trivial
                · split
                  · next heq => exact hvalue.of_error heq
                  · next v rest heq =>
                      have hrest := hvalue.of_ok heq
                      split
                      · trivial
                      · next c after hspace =>
                          have hafter := suffix_of_skipSpace_eq hrest hspace
                          have hlater := (ih.members (skipSpace after)).of_suffix
                            ((skipSpace_suffix after).trans hafter)
                          split
                          · exact hafter
                          · split
                            · split
                              · next heq => exact hlater.of_ok heq
                              · next heq => exact hlater.of_error heq
                            · trivial

-- The three readers call each other, but always with less fuel: one induction serves all.
/-- No fuel makes a reader stop for digits that the text does not hold. -/
theorem readsWith (fuel : Nat) : ReadsWith fuel := by
  induction fuel with
  | zero => exact ⟨fun _ => trivial, fun _ => trivial, fun _ => trivial⟩
  | succ fuel ih => exact ⟨readValue_reads ih, readItems_reads ih, readMembers_reads ih⟩

/-- **Reading a document stops for digits** only if it holds too many in a row. -/
theorem read_eq_tooManyDigits {t : Text} (h : read t = .error .tooManyDigits) :
    HoldsLongInteger t := by
  unfold read at h
  split at h
  · next c t =>
      split at h
      · cases h
      · have hvalue := (readsWith (2 * (skipSpace (c :: t)).length + 2)).value (skipSpace (c :: t))
        simp only at h
        split at h
        · next e heq =>
            obtain rfl := Except.error.inj h
            have hlong : HoldsLongInteger (skipSpace (c :: t)) := by
              rw [heq] at hvalue
              exact hvalue
            exact hlong.of_suffix (skipSpace_suffix _)
        · split at h <;> cases h
  · cases h

/-! ### A document that is refused for its digits -/

/-- A row of ones. -/
def ones (count : Nat) : Text :=
  List.replicate count (CodePoint.ofChar '1')

/-- A record whose identity is an integer of ones, as it is written. -/
def onesDocument (count : Nat) : Text :=
  "\x7b\"_id\":" ++ (ones count ++ "\x7d")

/-- A row of ones is cut off whole. -/
theorem cutDigits_ones (count : Nat) (rest : Text) :
    cutDigits (ones count ++ rest) =
      (List.replicate count 1 ++ (cutDigits rest).1, (cutDigits rest).2) := by
  induction count with
  | zero => rfl
  | succ count ih =>
      rw [ones, List.replicate_succ, List.cons_append, cutDigits, ← ones, ih]
      rfl

/-- The document of ones is ASCII on one line. -/
theorem val_of_mem_onesDocument {count : Nat} :
    ∀ c ∈ onesDocument count, c.val < 0x80 ∧ c.val ≠ 0x0A := by
  have hfront : ∀ c ∈ Text.ofString "\x7b\"_id\":", c.val < 0x80 ∧ c.val ≠ 0x0A := by decide
  have hones : ∀ c ∈ ones count, c.val < 0x80 ∧ c.val ≠ 0x0A := by
    intro c hc
    rw [List.eq_of_mem_replicate hc]
    decide
  have hbrace : ∀ c ∈ Text.ofString "\x7d", c.val < 0x80 ∧ c.val ≠ 0x0A := by decide
  exact List.forall_mem_append.mpr ⟨hfront, List.forall_mem_append.mpr ⟨hones, hbrace⟩⟩

section

variable {count : Nat} (h : Numeral.digitLimit < count + 1)
include h

/-- A row of ones beyond the limit has too many digits. -/
theorem readNumber_ones :
    readNumber (ones (count + 1) ++ Text.ofString "\x7d") = .error .tooManyDigits := by
  have hminus : Numeral.cutMinus (ones (count + 1) ++ Text.ofString "\x7d") =
      (false, ones (count + 1) ++ Text.ofString "\x7d") := rfl
  have hwhole : cutWhole (ones (count + 1) ++ Text.ofString "\x7d") =
      (1 :: List.replicate count 1, Text.ofString "\x7d") := by
    have hdigits := cutDigits_ones (count + 1) (Text.ofString "\x7d")
    have hbrace : cutDigits (Text.ofString "\x7d") = ([], Text.ofString "\x7d") := rfl
    rw [hbrace, List.append_nil] at hdigits
    exact hdigits
  have hfraction : cutFraction (Text.ofString "\x7d") = (none, Text.ofString "\x7d") := rfl
  have hexponent : cutExponent (Text.ofString "\x7d") = (none, Text.ofString "\x7d") := rfl
  have hnone : Numeral.signedInt? false (1 :: List.replicate count 1) = none := by
    rw [Numeral.signedInt?, List.length_cons, List.length_replicate]
    exact if_neg (Nat.not_le.mpr h)
  unfold readNumber
  simp only [hminus, hwhole, hfraction, hexponent, hnone]

/-- The value that starts with such a row has too many digits. -/
theorem readValue_ones (fuel : Nat) :
    readValue (fuel + 1) (ones (count + 1) ++ Text.ofString "\x7d") =
      .error .tooManyDigits := by
  have hone : ones (count + 1) ++ Text.ofString "\x7d" =
      CodePoint.ofChar '1' :: (ones count ++ Text.ofString "\x7d") := rfl
  have hword : readWord? (ones (count + 1) ++ Text.ofString "\x7d") = none := rfl
  have hatom : readAtom (ones (count + 1) ++ Text.ofString "\x7d") = .error .tooManyDigits := by
    rw [readAtom, hword]
    exact readNumber_ones h
  rw [hone] at hatom ⊢
  rw [readValue, if_neg (by decide), if_neg (by decide), if_neg (by decide)]
  exact hatom

theorem readMembers_ones (fuel : Nat) :
    readMembers (fuel + 2)
      (Text.ofString "\"_id\":" ++ (ones (count + 1) ++ Text.ofString "\x7d")) =
        .error .tooManyDigits := by
  have hquote : ∀ t, Text.ofString "\"_id\":" ++ t =
      CodePoint.ofChar '"' :: (Text.ofString "_id\":" ++ t) := fun _ => rfl
  have hlength : ∀ t, (Text.ofString "_id\":" ++ t).length + 1 = (t.length + 2) + 4 :=
    fun _ => rfl
  have hkey : ∀ n t, readString (n + 4) (Text.ofString "_id\":" ++ t) =
      .ok (Text.ofString "_id", Text.ofString ":" ++ t) := fun _ _ => rfl
  have hcolon : ∀ t, skipSpace (Text.ofString ":" ++ t) = CodePoint.ofChar ':' :: t :=
    fun _ => rfl
  have hspace : skipSpace (ones (count + 1) ++ Text.ofString "\x7d") =
      ones (count + 1) ++ Text.ofString "\x7d" := rfl
  rw [hquote, readMembers, if_neg (by decide), hlength, hkey]
  simp only [hcolon, hspace, readValue_ones h]
  rfl

/-- The document of ones beyond the limit is refused for its digits. -/
theorem read_onesDocument : read (onesDocument (count + 1)) = .error .tooManyDigits := by
  have hbrace : onesDocument (count + 1) = CodePoint.ofChar '{' ::
      (Text.ofString "\"_id\":" ++ (ones (count + 1) ++ Text.ofString "\x7d")) := rfl
  have hspace : ∀ t, skipSpace (Text.ofString "\"_id\":" ++ t) = Text.ofString "\"_id\":" ++ t :=
    fun _ => rfl
  have hvalue : ∀ fuel, readValue (fuel + 3) (onesDocument (count + 1)) =
      .error .tooManyDigits := by
    intro fuel
    rw [hbrace, readValue, if_neg (by decide), if_neg (by decide), if_pos (by decide)]
    simp only [hspace, readMembers_ones h]
    rfl
  have hread : readValue (2 * (skipSpace (onesDocument (count + 1))).length + 2)
      (skipSpace (onesDocument (count + 1))) = .error .tooManyDigits := by
    have hskip : skipSpace (onesDocument (count + 1)) = onesDocument (count + 1) := rfl
    obtain ⟨fuel, hfuel⟩ : ∃ fuel, 2 * (onesDocument (count + 1)).length + 2 = fuel + 3 := by
      rw [hbrace, List.length_cons]
      exact ⟨_, rfl⟩
    rw [hskip, hfuel]
    exact hvalue fuel
  rw [hbrace] at hread ⊢
  rw [read, if_neg (by decide)]
  simp only [hread]

end

end RecordLog.Json
