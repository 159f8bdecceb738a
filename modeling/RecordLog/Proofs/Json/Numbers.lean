import RecordLog.Json.Reader
import RecordLog.Json.Writer
import RecordLog.Proofs.Number.Shortest
import RecordLog.Proofs.Text.Digits

/-!
# Written numbers read back

Both directions meet in the `Spelling` of a number: the digits of its whole part, of its
fraction and of its exponent.  The reader takes a spelling apart, wherever it stands
(`readNumber_spelling`), and whatever the layout of a decimal is, it is a spelling of that
decimal's value (`exists_spelling`).  Since reading a decimal is rounding its value, the
shortest decimal of a double gives the double back (`readAtom_render`).

An integer is read back if it has no more digits than are taken (`readAtom_ofInt`).  No double
is written as an integer is (`render_ne_ofInt`), and both are written with few code points
(`numberMarks`).
-/

namespace RecordLog.Json

open Text (digitPoint digitsValue)

/-! ### Cutting off digits -/

/-- The digits stand in a row from zero on. -/
theorem val_digitPoint {d : Nat} (hd : d < 10) : (digitPoint d).val = 0x30 + d := by
  rw [digitPoint, CodePoint.ofNatOr, dif_pos (by omega)]

/-- A digit that was written reads back. -/
theorem asciiDigit?_digitPoint {d : Nat} (hd : d < 10) : (digitPoint d).asciiDigit? = some d := by
  have hrange : (0x30 ≤ 0x30 + d && 0x30 + d ≤ 0x39) = true := by
    rw [Bool.and_eq_true, decide_eq_true_eq, decide_eq_true_eq]
    omega
  rw [CodePoint.asciiDigit?, val_digitPoint hd, if_pos hrange, Nat.add_sub_cancel_left]

/-- No digit stands at the front of a text. -/
def NoDigit (t : Text) : Prop :=
  ∀ c ∈ t.head?, c.asciiDigit? = none

/-- A number that stands before a text ends there. -/
def EndsNumber (t : Text) : Prop :=
  ∀ c ∈ t.head?, c.asciiDigit? = none ∧ c.val ≠ 0x2E ∧ c.val ≠ 0x65 ∧ c.val ≠ 0x45

/-- No digit stands where a number ends. -/
theorem EndsNumber.noDigit {t : Text} (h : EndsNumber t) : NoDigit t :=
  fun c hc => (h c hc).1

variable {ds : List Nat} {rest : Text}

/-- Nothing is cut off where no digit stands. -/
theorem cutDigits_of_noDigit (hrest : NoDigit rest) : cutDigits rest = ([], rest) := by
  cases rest with
  | nil => rfl
  | cons c t => rw [cutDigits, hrest c rfl]

/-- Digits are cut off up to where no digit stands. -/
theorem cutDigits_append (hds : ∀ d ∈ ds, d < 10) (hrest : NoDigit rest) :
    cutDigits (ds.map digitPoint ++ rest) = (ds, rest) := by
  induction ds with
  | nil => exact cutDigits_of_noDigit hrest
  | cons d ds ih =>
      rw [List.forall_mem_cons] at hds
      rw [List.map_cons, List.cons_append, cutDigits, asciiDigit?_digitPoint hds.1, ih hds.2]

/-- A whole part is cut off up to where no digit stands. -/
theorem cutWhole_append (hwhole : Text.Whole ds) (hds : ∀ d ∈ ds, d < 10) (hrest : NoDigit rest) :
    cutWhole (ds.map digitPoint ++ rest) = (ds, rest) := by
  rcases hwhole with rfl | ⟨d, later, rfl, hd⟩
  · rfl
  · have hval : (digitPoint d).val ≠ 0x30 := by
      rw [val_digitPoint (hds d List.mem_cons_self)]
      omega
    have hcut := cutDigits_append hds hrest
    rw [List.map_cons, List.cons_append] at hcut ⊢
    rw [cutWhole, if_neg hval, hcut]

/-! ### Spellings -/

/-- A number as it is spelled, without its sign.  Without a point there are no digits of a
fraction. -/
structure Spelling where
  whole : List Nat
  fraction : List Nat
  /-- Whether the exponent is negative, and its digits. -/
  exponent : Option (Bool × List Nat)
  whole_starts : Text.Whole whole
  whole_lt : ∀ d ∈ whole, d < 10
  fraction_lt : ∀ d ∈ fraction, d < 10
  exponent_lt : ∀ e ∈ exponent, e.2 ≠ [] ∧ ∀ d ∈ e.2, d < 10

namespace Spelling

/-- A fraction with its point. -/
def fractionText : List Nat → Text
  | [] => []
  | d :: later => CodePoint.ofChar '.' :: (d :: later).map digitPoint

/-- An exponent with its mark and its sign. -/
def exponentText : Option (Bool × List Nat) → Text
  | none => []
  | some (negative, ds) =>
    CodePoint.ofChar 'e' :: CodePoint.ofChar (if negative then '-' else '+') :: ds.map digitPoint

/-- The number as a text. -/
def text (sp : Spelling) : Text :=
  sp.whole.map digitPoint ++ (fractionText sp.fraction ++ exponentText sp.exponent)

/-- The number of an exponent. -/
def exponentValue : Option (Bool × List Nat) → Int
  | none => 0
  | some (negative, ds) => if negative then -digitsValue ds else digitsValue ds

/-- The decimal that is spelled. -/
def decimal (sp : Spelling) : Decimal :=
  ⟨digitsValue (sp.whole ++ sp.fraction), exponentValue sp.exponent - sp.fraction.length⟩

end Spelling

/-- A fraction is cut off as it was spelled. -/
theorem cutFraction_append (fs : List Nat) (hfs : ∀ d ∈ fs, d < 10) (hrest : NoDigit rest)
    (hpoint : ∀ c ∈ rest.head?, c.val ≠ 0x2E) :
    cutFraction (Spelling.fractionText fs ++ rest) = (if fs = [] then none else some fs, rest) := by
  cases fs with
  | nil =>
      cases rest with
      | nil => rfl
      | cons c t =>
          rw [Spelling.fractionText, List.nil_append, cutFraction, if_neg (hpoint c rfl),
            if_pos rfl]
  | cons d later =>
      have hdot : (CodePoint.ofChar '.').val = 0x2E := rfl
      rw [Spelling.fractionText, List.cons_append, cutFraction, if_pos hdot,
        cutDigits_append hfs hrest, if_neg (List.cons_ne_nil d later)]

/-- An exponent is cut off as it was spelled. -/
theorem cutExponent_append (e : Option (Bool × List Nat))
    (he : ∀ p ∈ e, p.2 ≠ [] ∧ ∀ d ∈ p.2, d < 10) (hrest : EndsNumber rest) :
    cutExponent (Spelling.exponentText e ++ rest) =
      (e.map fun _ => Spelling.exponentValue e, rest) := by
  cases e with
  | none =>
      cases rest with
      | nil => rfl
      | cons c t =>
          obtain ⟨_, _, hlower, hupper⟩ := hrest c rfl
          have hmark : ¬ (c.val = 0x65 || c.val = 0x45) := by
            simp only [hlower, hupper, decide_false, Bool.or_self, Bool.false_eq_true,
              not_false_eq_true]
          rw [Spelling.exponentText, List.nil_append, cutExponent, if_neg hmark]
          rfl
  | some p =>
      obtain ⟨negative, ds⟩ := p
      obtain ⟨hne, hds⟩ := he _ rfl
      have hsign : Numeral.cutSign (CodePoint.ofChar (if negative then '-' else '+') ::
          (ds.map digitPoint ++ rest)) = (negative, ds.map digitPoint ++ rest) := by
        cases negative <;> rfl
      have hmark : ((CodePoint.ofChar 'e').val = 0x65 || (CodePoint.ofChar 'e').val = 0x45) := by
        decide
      rw [Spelling.exponentText, List.cons_append, List.cons_append, cutExponent, if_pos hmark,
        hsign]
      simp only [cutDigits_append hds hrest.noDigit]
      cases ds with
      | nil => exact absurd rfl hne
      | cons d later => rfl

/-! ### Reading a spelling -/

/-- Neither a digit nor a point stands where the fraction of a spelling has ended. -/
theorem Spelling.noDigit_of_tail (e : Option (Bool × List Nat)) (hrest : EndsNumber rest) :
    NoDigit (exponentText e ++ rest) ∧ ∀ c ∈ (exponentText e ++ rest).head?, c.val ≠ 0x2E := by
  cases e with
  | none => exact ⟨hrest.noDigit, fun c hc => (hrest c hc).2.1⟩
  | some p =>
      constructor
      · rintro c hc
        cases hc
        rfl
      · rintro c hc
        cases hc
        decide

/-- No digit stands where the whole part of a spelling has ended. -/
theorem Spelling.noDigit_of_fraction (sp : Spelling) (hrest : EndsNumber rest) :
    NoDigit (fractionText sp.fraction ++ (exponentText sp.exponent ++ rest)) := by
  cases sp.fraction with
  | nil => exact (noDigit_of_tail sp.exponent hrest).1
  | cons d later =>
      rintro c hc
      cases hc
      rfl

/-- A spelling in front of a text is its whole part, its fraction, its exponent and the text. -/
theorem Spelling.text_append (sp : Spelling) (rest : Text) :
    sp.text ++ rest = sp.whole.map digitPoint ++
      (fractionText sp.fraction ++ (exponentText sp.exponent ++ rest)) := by
  rw [text, List.append_assoc, List.append_assoc]

/-- A spelling starts with a digit. -/
theorem Spelling.exists_text_eq (sp : Spelling) :
    ∃ d t, d < 10 ∧ sp.text = digitPoint d :: t := by
  obtain ⟨d, later, hwhole⟩ := List.exists_cons_of_ne_nil sp.whole_starts.ne_nil
  have htext : sp.text = digitPoint d ::
      (later.map digitPoint ++ (fractionText sp.fraction ++ exponentText sp.exponent)) := by
    rw [text, hwhole, List.map_cons, List.cons_append]
  exact ⟨d, _, sp.whole_lt d (hwhole ▸ List.mem_cons_self), htext⟩

/-- A sign is cut off as it was written. -/
theorem cutMinus_signed {negative : Bool} {d : Nat} (hd : d < 10) (t : Text) :
    Numeral.cutMinus (Text.signed negative (digitPoint d :: t)) =
      (negative, digitPoint d :: t) := by
  cases negative with
  | true => rfl
  | false =>
      have hne : digitPoint d ≠ CodePoint.ofChar '-' := by
        intro heq
        have hval := congrArg CodePoint.val heq
        rw [val_digitPoint hd] at hval
        have hminus : (CodePoint.ofChar '-').val = 0x2D := rfl
        omega
      rw [Text.signed, if_neg Bool.false_ne_true, Numeral.cutMinus, if_neg hne]

/-- The parts of a spelling, as the reader cuts them off. -/
theorem readNumber_spelling (sp : Spelling) (negative : Bool) (hrest : EndsNumber rest) :
    readNumber (Text.signed negative (sp.text ++ rest)) =
      if sp.fraction = [] ∧ sp.exponent = none then
        match Numeral.signedInt? negative sp.whole with
        | some n => .ok (.int n, rest)
        | none => .error .tooManyDigits
      else .ok (.float (sp.decimal.toDouble negative), rest) := by
  have hminus : Numeral.cutMinus (Text.signed negative (sp.text ++ rest)) =
      (negative, sp.text ++ rest) := by
    obtain ⟨d, t, hd, htext⟩ := sp.exists_text_eq
    rw [htext, List.cons_append]
    exact cutMinus_signed hd _
  obtain ⟨htail, hpoint⟩ := Spelling.noDigit_of_tail sp.exponent hrest
  have hwhole := cutWhole_append sp.whole_starts sp.whole_lt (sp.noDigit_of_fraction hrest)
  have hfraction := cutFraction_append sp.fraction sp.fraction_lt htail hpoint
  have hexponent := cutExponent_append sp.exponent sp.exponent_lt hrest
  rw [readNumber, hminus]
  simp only [sp.text_append, hwhole]
  split
  · next hnil => exact absurd (congrArg Prod.fst hnil) sp.whole_starts.ne_nil
  · next whole after _ heq =>
      obtain ⟨rfl, rfl⟩ := Prod.mk.inj heq
      have hvalue : (sp.exponent.map fun _ => Spelling.exponentValue sp.exponent).getD 0 =
          Spelling.exponentValue sp.exponent := by
        cases sp.exponent <;> rfl
      simp only [hfraction, hexponent, hvalue, Spelling.decimal]
      cases sp.fraction with
      | nil =>
          cases sp.exponent with
          | none => rfl
          | some p => rfl
      | cons d later => rfl

/-! ### Atoms -/

/-- A character outside the row of digits is no digit. -/
theorem ofChar_ne_digitPoint {c : Char} {d : Nat} (hd : d < 10)
    (hc : c.toNat < 0x30 ∨ 0x3A ≤ c.toNat) : CodePoint.ofChar c ≠ digitPoint d := by
  intro heq
  have hval := congrArg CodePoint.val heq
  rw [val_digitPoint hd] at hval
  have htoNat : (CodePoint.ofChar c).val = c.toNat := rfl
  omega

/-- A text that starts with none of the words holds none at its front. -/
theorem readWord?_eq_none {t : Text} (h : ∀ w ∈ words, Text.dropStart? w.1 t = none) :
    readWord? t = none := by
  refine List.findSome?_eq_none_iff.mpr ?_
  rintro ⟨word, value⟩ hw
  exact congrArg (Option.map _) (h _ hw)

/-- A spelling is no word, with a sign or without. -/
theorem readAtom_spelling (sp : Spelling) (negative : Bool) (rest : Text) :
    readAtom (Text.signed negative (sp.text ++ rest)) =
      readNumber (Text.signed negative (sp.text ++ rest)) := by
  obtain ⟨d, t, hd, htext⟩ := sp.exists_text_eq
  have hword : readWord? (Text.signed negative (sp.text ++ rest)) = none := by
    rw [htext, List.cons_append]
    apply readWord?_eq_none
    have hn : CodePoint.ofChar 'n' ≠ digitPoint d := ofChar_ne_digitPoint hd (by decide)
    have ht : CodePoint.ofChar 't' ≠ digitPoint d := ofChar_ne_digitPoint hd (by decide)
    have hf : CodePoint.ofChar 'f' ≠ digitPoint d := ofChar_ne_digitPoint hd (by decide)
    have hN : CodePoint.ofChar 'N' ≠ digitPoint d := ofChar_ne_digitPoint hd (by decide)
    have hI : CodePoint.ofChar 'I' ≠ digitPoint d := ofChar_ne_digitPoint hd (by decide)
    have hminus : CodePoint.ofChar '-' ≠ digitPoint d := ofChar_ne_digitPoint hd (by decide)
    simp only [words, List.forall_mem_cons]
    cases negative with
    | false => exact ⟨if_neg hn, if_neg ht, if_neg hf, if_neg hN, if_neg hI, if_neg hminus, nofun⟩
    | true => exact ⟨rfl, rfl, rfl, rfl, rfl, if_neg hI, nofun⟩
  rw [readAtom, hword]

/-- The spelling of a natural number. -/
def Spelling.ofNat (n : Nat) : Spelling where
  whole := Text.digits n
  fraction := []
  exponent := none
  whole_starts := Text.digits_whole n
  whole_lt := fun _ => Text.digits_lt_ten
  fraction_lt := nofun
  exponent_lt := nofun

/-- An integer is written as the spelling of its absolute value behind its sign. -/
theorem ofInt_eq_signed (n : Int) :
    Text.ofInt n = Text.signed (n < 0) (Spelling.ofNat n.natAbs).text := by
  have htext : ∀ k, (Spelling.ofNat k).text = Text.ofNat k := fun k => List.append_nil _
  rw [htext]
  cases n with
  | ofNat k =>
      have hsign : ¬ Int.ofNat k < 0 := Int.not_lt.mpr (Int.natCast_nonneg k)
      rw [Text.signed, decide_eq_false hsign]
      rfl
  | negSucc k =>
      rw [Text.signed, decide_eq_true (Int.negSucc_lt_zero k)]
      rfl

theorem signed_append (negative : Bool) (t rest : Text) :
    Text.signed negative t ++ rest = Text.signed negative (t ++ rest) := by
  cases negative <;> rfl

/-- An integer reads back, unless it has too many digits. -/
theorem readAtom_ofInt {n : Int} (hn : (Text.digits n.natAbs).length ≤ Numeral.digitLimit)
    (hrest : EndsNumber rest) : readAtom (Text.ofInt n ++ rest) = .ok (.int n, rest) := by
  have hvalue : Numeral.signedInt? (n < 0) (Text.digits n.natAbs) = some n := by
    rw [Numeral.signedInt?, if_pos hn, Text.digitsValue_digits]
    simp only [decide_eq_true_eq]
    split
    · next hneg => exact congrArg some (by omega)
    · next hneg => exact congrArg some (by omega)
  rw [ofInt_eq_signed, signed_append, readAtom_spelling, readNumber_spelling _ _ hrest,
    if_pos ⟨rfl, rfl⟩]
  simp only [Spelling.ofNat, hvalue]

/-! ### Layouts -/

/-- A fraction is its digits behind a point. -/
theorem Spelling.fractionText_of_ne_nil {fs : List Nat} (h : fs ≠ []) :
    fractionText fs = CodePoint.ofChar '.' :: fs.map digitPoint := by
  cases fs with
  | nil => exact absurd rfl h
  | cons d later => rfl

/-- The first digit of a number other than zero is not zero. -/
theorem exists_digits_eq_cons {n : Nat} (hn : n ≠ 0) :
    ∃ d later, Text.digits n = d :: later ∧ d ≠ 0 := by
  rcases Text.digits_whole n with hzero | hwhole
  · have hvalue := Text.digitsValue_digits n
    rw [hzero] at hvalue
    exact absurd hvalue.symm hn
  · exact hwhole

theorem zeros_lt_ten (count : Nat) : ∀ d ∈ List.replicate count 0, d < 10 := by
  intro d hd
  rw [List.eq_of_mem_replicate hd]
  decide

/-- Zeros in front of digits are written as such. -/
theorem map_zeros_append (count : Nat) (ds : List Nat) :
    (List.replicate count 0 ++ ds).map digitPoint =
      List.replicate count (CodePoint.ofChar '0') ++ ds.map digitPoint := by
  rw [List.map_append, List.map_replicate]
  rfl

/-- A spelling has the nearest double of any decimal with its digits and its exponent. -/
theorem Spelling.nearest_decimal {sp : Spelling} {n : Nat} {e : Int}
    (hvalue : digitsValue (sp.whole ++ sp.fraction) = n)
    (hexponent : exponentValue sp.exponent - sp.fraction.length = e) :
    sp.decimal.nearest = Decimal.nearest ⟨n, e⟩ := by
  rw [decimal, hvalue, hexponent]

/-- The digits of a number around a point are a spelling with a fraction. -/
def SpelledAround (n : Nat) (point : Int) : Prop :=
  ∃ sp : Spelling, sp.fraction ≠ [] ∧
    DecimalLayout.positional (Text.ofNat n) point = sp.text ∧
    sp.decimal.nearest = Decimal.nearest ⟨n, point - (Text.digits n).length⟩

/-- All digits stand after the point, and zeros before them. -/
theorem spelledAround_below (n : Nat) {point : Int} (hpoint : point ≤ 0) :
    SpelledAround n point := by
  let sp : Spelling :=
    { whole := [0]
      fraction := List.replicate point.natAbs 0 ++ Text.digits n
      exponent := none
      whole_starts := Or.inl rfl
      whole_lt := by decide
      fraction_lt := List.forall_mem_append.mpr ⟨zeros_lt_ten _, fun _ => Text.digits_lt_ten⟩
      exponent_lt := nofun }
  have hfraction : sp.fraction ≠ [] :=
    List.append_ne_nil_of_right_ne_nil _ (Text.digits_whole n).ne_nil
  refine ⟨sp, hfraction, ?_, Spelling.nearest_decimal ?_ ?_⟩
  · rw [DecimalLayout.positional, if_pos hpoint, Spelling.text,
      Spelling.fractionText_of_ne_nil hfraction, map_zeros_append]
    simp only [sp, Spelling.exponentText, List.append_nil]
    rfl
  · have hzero : digitsValue [0] = 0 := rfl
    rw [Text.digitsValue_append, Text.digitsValue_zeros_append, Text.digitsValue_digits, hzero,
      Nat.zero_mul, Nat.zero_add]
  · simp only [sp, Spelling.exponentValue, List.length_append, List.length_replicate]
    omega

/-- Zeros stand between the digits and the point.  Zero itself has no room for them. -/
theorem spelledAround_above {n : Nat} {point : Int} (h : n ≠ 0 ∨ point = 1)
    (hpoint : ¬ point ≤ 0) (hlong : (Text.digits n).length ≤ point.toNat) :
    SpelledAround n point := by
  let count := point.toNat - (Text.digits n).length
  have hlength : (Text.ofNat n).length = (Text.digits n).length := List.length_map _
  have hstarts : Text.Whole (Text.digits n ++ List.replicate count 0) := by
    by_cases hn : n = 0
    · have hcount : count = 0 := by
        have hone : point = 1 := h.resolve_left (not_not_intro hn)
        have hpos := List.length_pos_iff.mpr (Text.digits_whole n).ne_nil
        simp only [count, hone]
        omega
      rw [hcount, List.replicate_zero, List.append_nil]
      exact Text.digits_whole n
    · obtain ⟨d, later, hcons, hd⟩ := exists_digits_eq_cons hn
      exact Or.inr ⟨d, _, by rw [hcons, List.cons_append], hd⟩
  let sp : Spelling :=
    { whole := Text.digits n ++ List.replicate count 0
      fraction := [0]
      exponent := none
      whole_starts := hstarts
      whole_lt := List.forall_mem_append.mpr ⟨fun _ => Text.digits_lt_ten, zeros_lt_ten _⟩
      fraction_lt := by decide
      exponent_lt := nofun }
  have hvalue : digitsValue (sp.whole ++ sp.fraction) = n * tenTo (count + 1) := by
    simp only [sp]
    rw [List.append_assoc, ← List.replicate_succ', Text.digitsValue_append_zeros,
      Text.digitsValue_digits]
  refine ⟨sp, List.cons_ne_nil _ _, ?_, ?_⟩
  · rw [DecimalLayout.positional, if_neg hpoint, hlength, if_pos hlong]
    simp only [sp, Spelling.text, Spelling.fractionText, Spelling.exponentText, List.append_nil,
      List.map_append, List.map_replicate]
    rfl
  · rw [Spelling.nearest_decimal hvalue rfl, Decimal.nearest_shift]
    congr 2
    simp only [sp, Spelling.exponentValue, count, List.length_singleton]
    omega

/-- The point stands between digits. -/
theorem spelledAround_within {n : Nat} (hn : n ≠ 0) {point : Int} (hpoint : ¬ point ≤ 0)
    (hshort : ¬ (Text.digits n).length ≤ point.toNat) :
    SpelledAround n point := by
  have hlength : (Text.ofNat n).length = (Text.digits n).length := List.length_map _
  obtain ⟨d, later, hcons, hd⟩ := exists_digits_eq_cons hn
  obtain ⟨before, hbefore⟩ : ∃ k, point.toNat = k + 1 := ⟨point.toNat - 1, by omega⟩
  let sp : Spelling :=
    { whole := (Text.digits n).take point.toNat
      fraction := (Text.digits n).drop point.toNat
      exponent := none
      whole_starts := Or.inr ⟨d, later.take before, by rw [hcons, hbefore]; rfl, hd⟩
      whole_lt := fun e he => Text.digits_lt_ten (List.mem_of_mem_take he)
      fraction_lt := fun e he => Text.digits_lt_ten (List.mem_of_mem_drop he)
      exponent_lt := nofun }
  have hfraction : sp.fraction ≠ [] := by
    rw [Ne, List.drop_eq_nil_iff]
    omega
  refine ⟨sp, hfraction, ?_, Spelling.nearest_decimal ?_ ?_⟩
  · rw [DecimalLayout.positional, if_neg hpoint, hlength, if_neg hshort, Spelling.text,
      Spelling.fractionText_of_ne_nil hfraction]
    simp only [sp, Spelling.exponentText, List.append_nil, List.map_take, List.map_drop,
      Text.ofNat, List.append_assoc]
    rfl
  · simp only [sp, List.take_append_drop, Text.digitsValue_digits]
  · simp only [sp, Spelling.exponentValue, List.length_drop]
    omega

/-- Digits with a point anywhere among or around them are a spelling. -/
theorem spelledAround {n : Nat} {point : Int} (h : n ≠ 0 ∨ point = 1) : SpelledAround n point := by
  by_cases hpoint : point ≤ 0
  · exact spelledAround_below n hpoint
  · by_cases hlong : (Text.digits n).length ≤ point.toNat
    · exact spelledAround_above h hpoint hlong
    · -- zero has one digit, and it stands before the point
      have hn : n ≠ 0 := by
        rintro rfl
        have hone : point = 1 := h.resolve_left fun hzero => hzero rfl
        rw [hone] at hlong
        exact hlong (Nat.le_refl 1)
      exact spelledAround_within hn hpoint hlong

/-- Digits in front of a power of ten are a spelling. -/
theorem exists_spelling_scientific {n : Nat} (hn : n ≠ 0) (power : Int) :
    ∃ sp : Spelling, sp.exponent ≠ none ∧
      DecimalLayout.standard.scientific (Text.ofNat n) power = sp.text ∧
      sp.decimal.nearest = Decimal.nearest ⟨n, power + 1 - (Text.digits n).length⟩ := by
  obtain ⟨d, later, hcons, hd⟩ := exists_digits_eq_cons hn
  have hdigits : ∀ e ∈ d :: later, e < 10 := fun _ he => Text.digits_lt_ten (hcons ▸ he)
  let size := Text.digits power.natAbs
  let count := DecimalLayout.standard.exponentDigits - (Text.ofNat power.natAbs).length
  let sp : Spelling :=
    { whole := [d]
      fraction := later
      exponent := some (power < 0, List.replicate count 0 ++ size)
      whole_starts := Or.inr ⟨d, [], rfl, hd⟩
      whole_lt := List.forall_mem_singleton.mpr (hdigits d List.mem_cons_self)
      fraction_lt := fun e he => hdigits e (List.mem_cons_of_mem d he)
      exponent_lt := by
        rintro _ ⟨⟩
        refine ⟨List.append_ne_nil_of_right_ne_nil _ (Text.digits_whole _).ne_nil, ?_⟩
        exact List.forall_mem_append.mpr ⟨zeros_lt_ten count, fun _ => Text.digits_lt_ten⟩ }
  have hmark : (if power < 0 then ("e-" : Text) else "e+") =
      [CodePoint.ofChar 'e', CodePoint.ofChar (if (power < 0 : Bool) then '-' else '+')] := by
    by_cases hneg : power < 0
    · rw [if_pos hneg, decide_eq_true hneg]
      rfl
    · rw [if_neg hneg, decide_eq_false hneg]
      rfl
  refine ⟨sp, Option.some_ne_none _, ?_, Spelling.nearest_decimal ?_ ?_⟩
  · have hexponent : DecimalLayout.standard.exponent power =
        Spelling.exponentText sp.exponent := by
      rw [DecimalLayout.exponent, hmark]
      simp only [sp, Spelling.exponentText, map_zeros_append]
      rfl
    rw [Text.ofNat, hcons, Spelling.text, ← hexponent]
    cases later with
    | nil => rfl
    | cons e later => rfl
  · rw [← Text.digitsValue_digits n, hcons]
    rfl
  · have hvalue : Spelling.exponentValue sp.exponent = power := by
      simp only [sp, Spelling.exponentValue, Text.digitsValue_zeros_append, size,
        Text.digitsValue_digits, decide_eq_true_eq]
      split <;> omega
    rw [hvalue, hcons, List.length_cons]
    simp only [sp]
    omega

/-- However a decimal is laid out, it is a spelling of its value that is no integer. -/
theorem exists_spelling (d : Decimal) :
    ∃ sp : Spelling, ¬ (sp.fraction = [] ∧ sp.exponent = none) ∧
      DecimalLayout.standard.render d = sp.text ∧ sp.decimal.nearest = d.nearest := by
  have hlength : (Text.ofNat d.digits).length = (Text.digits d.digits).length :=
    List.length_map _
  rw [DecimalLayout.render]
  split
  · next hzero =>
      obtain ⟨sp, hfraction, htext, hnearest⟩ :=
        spelledAround (n := d.digits) (Or.inr rfl)
      have hvalue : sp.decimal.nearest = d.nearest := by
        rw [hnearest, Decimal.nearest_of_digits_eq_zero hzero, Decimal.nearest_of_digits_eq_zero]
        exact hzero
      exact ⟨sp, fun h => hfraction h.1, htext, hvalue⟩
  · next hdigits =>
      have hexponent : d.exponent + (Text.ofNat d.digits).length - 1 + 1 -
          (Text.digits d.digits).length = d.exponent := by omega
      dsimp only
      split
      · obtain ⟨sp, hfraction, htext, hnearest⟩ := spelledAround (Or.inl hdigits)
        rw [hexponent] at hnearest
        exact ⟨sp, fun h => hfraction h.1, htext, hnearest⟩
      · obtain ⟨sp, hsome, htext, hnearest⟩ := exists_spelling_scientific hdigits _
        rw [hexponent] at hnearest
        exact ⟨sp, fun h => hsome h.2, htext, hnearest⟩

/-- A double reads back, whether it has digits or a word. -/
theorem readAtom_render (x : Double) (hrest : EndsNumber rest) :
    readAtom (x.render doubleWords ++ rest) = .ok (.float x, rest) := by
  cases x with
  | nan => rfl
  | infinite negative => cases negative <;> rfl
  | finite negative m =>
      obtain ⟨sp, hfloat, htext, hnearest⟩ := exists_spelling (Decimal.shortest m)
      have hvalue : sp.decimal.toDouble negative = .finite negative m := by
        rw [Decimal.toDouble_eq, hnearest, ← Decimal.toDouble_eq, Decimal.toDouble_shortest]
      rw [Double.render, htext, signed_append, readAtom_spelling, readNumber_spelling _ _ hrest,
        if_neg hfloat, hvalue]

/-! ### What numbers are written with -/

/-- The code points of written numbers. -/
def numberMarks : Text := "0123456789.e+-"

/-- A digit is a mark of a number. -/
theorem digitPoint_mem_numberMarks : ∀ d < 10, Text.digitPoint d ∈ numberMarks := by
  decide

theorem map_digitPoint_subset {ds : List Nat} (h : ∀ d ∈ ds, d < 10) :
    ds.map Text.digitPoint ⊆ numberMarks := by
  intro c hc
  obtain ⟨d, hd, rfl⟩ := List.mem_map.mp hc
  exact digitPoint_mem_numberMarks d (h d hd)

/-- A spelling is made of the marks of a number. -/
theorem Spelling.text_subset (sp : Spelling) : sp.text ⊆ numberMarks := by
  have hfraction : fractionText sp.fraction ⊆ numberMarks := by
    have hdigits := map_digitPoint_subset sp.fraction_lt
    cases hfs : sp.fraction with
    | nil => exact List.nil_subset _
    | cons d later => exact List.cons_subset.mpr ⟨by decide, hfs ▸ hdigits⟩
  have hexponent : exponentText sp.exponent ⊆ numberMarks := by
    cases he : sp.exponent with
    | none => exact List.nil_subset _
    | some e =>
        obtain ⟨negative, ds⟩ := e
        have hdigits := map_digitPoint_subset (sp.exponent_lt (negative, ds) he).2
        have hsign : CodePoint.ofChar (if negative then '-' else '+') ∈ numberMarks := by
          cases negative <;> decide
        exact List.cons_subset.mpr ⟨by decide, List.cons_subset.mpr ⟨hsign, hdigits⟩⟩
  exact List.append_subset.mpr ⟨map_digitPoint_subset sp.whole_lt,
    List.append_subset.mpr ⟨hfraction, hexponent⟩⟩

theorem signed_subset (negative : Bool) {t : Text} (h : t ⊆ numberMarks) :
    Text.signed negative t ⊆ numberMarks := by
  cases negative with
  | true => exact List.cons_subset.mpr ⟨by decide, h⟩
  | false => exact h

theorem ofInt_subset (n : Int) : Text.ofInt n ⊆ numberMarks := by
  rw [ofInt_eq_signed]
  exact signed_subset _ (Spelling.text_subset _)

/-- A finite double is made of the marks of a number. -/
theorem render_finite_subset (words : DoubleWords) (negative : Bool) (m : Magnitude) :
    Double.render words (.finite negative m) ⊆ numberMarks := by
  obtain ⟨sp, -, htext, -⟩ := exists_spelling (Decimal.shortest m)
  rw [Double.render, htext]
  exact signed_subset _ sp.text_subset

/-- A written double is no written integer: it reads back as a double. -/
theorem render_ne_ofInt (x : Double) (n : Int) : x.render doubleWords ≠ Text.ofInt n := by
  intro heq
  have hends : EndsNumber [] := nofun
  have hdouble := readAtom_render x hends
  have hint := readNumber_spelling (Spelling.ofNat n.natAbs) (n < 0) hends
  rw [heq, ofInt_eq_signed, signed_append, readAtom_spelling, hint, if_pos ⟨rfl, rfl⟩] at hdouble
  split at hdouble <;> cases hdouble

end RecordLog.Json
