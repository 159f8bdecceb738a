import Mathlib.Data.List.Infix
import RecordLog.Number.Numeral

/-!
# Plain numerals are read

A plain numeral is an optional minus sign and digits, and possibly a point and more digits.
Such a text is read as the number that it spells, with two exceptions: an integer of too many
digits (`exists_toInt?`, `exists_toDouble?`), and a text that has information separators beside
the numeral.  These are blank (`unsurrounded_eq_trimmed`), but a number is not read past them.
-/

namespace RecordLog

/-- An information separator: a blank that may not stand beside a numeral. -/
def CodePoint.isSeparator (c : CodePoint) : Bool :=
  0x1C ≤ c.val && c.val ≤ 0x1F

namespace Numeral

/-! ### Signs -/

theorem cutMinus_suffix (t : Text) : (cutMinus t).2 <:+ t := by
  unfold cutMinus
  split
  · exact List.suffix_refl _
  · next c t =>
      split
      · exact List.suffix_cons c t
      · exact List.suffix_refl _

theorem cutSign_suffix (t : Text) : (cutSign t).2 <:+ t := by
  unfold cutSign
  split
  · exact List.suffix_refl _
  · next c t =>
      split
      · exact List.suffix_cons c t
      · exact cutMinus_suffix (c :: t)

/-! ### Trimming -/

/-- But for the separators, what may surround a numeral is what is blank. -/
theorem isSurround_of_not_isSeparator {c : CodePoint} (h : c.isSeparator = false) :
    isSurround c = Text.isBlank c := by
  have hrange : (0x1C ≤ c.val && c.val ≤ 0x1F) = false := h
  rw [isSurround, hrange, Bool.not_false, Bool.and_true]

/-- Two tests that agree on a text drop the same front of it. -/
theorem dropWhile_eq_of_forall {p q : CodePoint → Bool} {t : Text} (h : ∀ c ∈ t, p c = q c) :
    t.dropWhile p = t.dropWhile q := by
  induction t with
  | nil => rfl
  | cons c t ih =>
      obtain ⟨hc, ht⟩ := List.forall_mem_cons.mp h
      rw [List.dropWhile_cons, List.dropWhile_cons, hc, ih ht]

/-- A text without separators loses its surroundings as it is trimmed. -/
theorem unsurrounded_eq_trimmed {t : Text} (h : ∀ c ∈ t, c.isSeparator = false) :
    unsurrounded t = t.trimmed := by
  have hblank : ∀ c ∈ t, isSurround c = Text.isBlank c :=
    fun c hc => isSurround_of_not_isSeparator (h c hc)
  have hfront := dropWhile_eq_of_forall hblank
  have hback : ∀ c ∈ (t.dropWhile Text.isBlank).reverse, isSurround c = Text.isBlank c :=
    fun c hc => hblank c ((List.dropWhile_sublist _).subset (List.mem_reverse.mp hc))
  rw [unsurrounded, Text.trimmed, Text.dropTrailing, Text.dropTrailing, hfront,
    dropWhile_eq_of_forall hback]

/-- Trimming leaves code points of the text, in their order. -/
theorem trimmed_sublist (t : Text) : t.trimmed.Sublist t :=
  (Text.dropTrailing_prefix _ _).sublist.trans (List.dropWhile_sublist _)

/-! ### Reading numerals -/

/-- Digits with nothing between them are read, one by one. -/
theorem groupedDigits?_of_all {t : Text} (hne : t ≠ [])
    (h : ∀ c ∈ t, Text.isDecimalDigit c = true) :
    ∃ ds, groupedDigits? t = some ds ∧ ds.length = t.length := by
  induction t with
  | nil => exact absurd rfl hne
  | cons c t ih =>
      obtain ⟨hc, ht⟩ := List.forall_mem_cons.mp h
      obtain ⟨d, hd⟩ := Option.isSome_iff_exists.mp hc
      cases t with
      | nil =>
          refine ⟨[d], ?_, rfl⟩
          rw [groupedDigits?.eq_def]
          simp only [hd]
      | cons u t =>
          have hu : u ≠ CodePoint.ofChar '_' := by
            rintro rfl
            exact absurd (ht _ List.mem_cons_self) (by decide)
          obtain ⟨ds, hds, hlength⟩ := ih (List.cons_ne_nil u t) ht
          refine ⟨d :: ds, ?_, congrArg Nat.succ hlength⟩
          rw [groupedDigits?.eq_def]
          simp only [hd, hu, if_false, hds, Option.map_some]

/-- Every digit of a text of digits has a value. -/
theorem digitValues?_of_all {t : Text} (h : ∀ c ∈ t, Text.isDecimalDigit c = true) :
    ∃ ds, digitValues? t = some ds := by
  induction t with
  | nil => exact ⟨[], rfl⟩
  | cons c t ih =>
      obtain ⟨hc, ht⟩ := List.forall_mem_cons.mp h
      obtain ⟨d, hd⟩ := Option.isSome_iff_exists.mp hc
      obtain ⟨ds, hds⟩ := ih ht
      refine ⟨d :: ds, ?_⟩
      rw [digitValues?] at hds ⊢
      rw [List.mapM_cons, hd, hds]
      rfl

/-- What a plain numeral without a point is: a sign, or none, and digits. -/
theorem shape?_eq_whole {t : Text} (h : shape? t = some .whole) :
    (cutMinus t).2 ≠ [] ∧ ∀ c ∈ (cutMinus t).2, Text.isDecimalDigit c = true := by
  unfold shape? at h
  dsimp only at h
  split at h
  · split at h
    · next hbody => exact ⟨hbody.1, fun c hc => List.all_eq_true.mp hbody.2 c hc⟩
    · cases h
  · split at h <;> cases h

/-- What a plain numeral with a point is: a sign, or none, and digits on both sides. -/
theorem shape?_eq_fraction {t : Text} (h : shape? t = some .fraction) :
    ∃ ws fs, Text.cutAt? '.' (cutMinus t).2 = some (ws, fs) ∧ ws ≠ [] ∧
      (∀ c ∈ ws, Text.isDecimalDigit c = true) ∧ ∀ c ∈ fs, Text.isDecimalDigit c = true := by
  unfold shape? at h
  dsimp only at h
  split at h
  · split at h <;> cases h
  · next ws fs hcut =>
      split at h
      · next hparts =>
          obtain ⟨hws, _, hwhole, hfraction⟩ := hparts
          exact ⟨ws, fs, hcut, hws, List.all_eq_true.mp hwhole, List.all_eq_true.mp hfraction⟩
      · cases h

/-- A plain numeral does not begin with a plus sign. -/
theorem cutSign_of_shape? {t : Text} {shape : Shape} (h : shape? t = some shape) :
    cutSign t = cutMinus t := by
  cases t with
  | nil => rfl
  | cons c t =>
      by_cases hc : c = CodePoint.ofChar '+'
      · subst hc
        have hplus : Text.isDecimalDigit (CodePoint.ofChar '+') ≠ true := by decide
        cases shape with
        | whole => exact absurd ((shape?_eq_whole h).2 _ List.mem_cons_self) hplus
        | fraction =>
            obtain ⟨ws, fs, hcut, _, hwhole, _⟩ := shape?_eq_fraction h
            obtain ⟨⟨before, after⟩, _, hparts⟩ := Option.map_eq_some_iff.mp hcut
            obtain rfl := congrArg Prod.fst hparts
            exact absurd (hwhole _ List.mem_cons_self) hplus
      · rw [cutSign, if_neg hc]

/-- A numeral of few digits is read as an integer. -/
theorem exists_toInt? {t : Text} (hshape : shape? (unsurrounded t) = some .whole)
    (hdigits : (unsurrounded t).countP Text.isDecimalDigit ≤ digitLimit) :
    ∃ n, toInt? t = some n := by
  obtain ⟨hne, hall⟩ := shape?_eq_whole hshape
  obtain ⟨ds, hds, hlength⟩ := groupedDigits?_of_all hne hall
  have hfew : ds.length ≤ digitLimit := by
    rw [hlength, ← List.countP_eq_length.mpr hall]
    exact (cutMinus_suffix _).sublist.countP_le.trans hdigits
  rw [toInt?, cutSign_of_shape? hshape]
  simp only [hds, Option.bind_some, signedInt?, hfew, if_true]
  exact ⟨_, rfl⟩

/-- A text in the shape of a fraction is a double. -/
theorem exists_toDouble? {t : Text} (hshape : shape? (unsurrounded t) = some .fraction) :
    ∃ x, toDouble? t = some x := by
  obtain ⟨ws, fs, hcut, _, hwhole, hfraction⟩ := shape?_eq_fraction hshape
  obtain ⟨whole, hws⟩ := digitValues?_of_all hwhole
  obtain ⟨fraction, hfs⟩ := digitValues?_of_all hfraction
  simp only [toDouble?, hcut, hws, hfs]
  exact ⟨_, rfl⟩

end Numeral

end RecordLog
