import RecordLog.Proofs.Number.Numerals
import RecordLog.Proofs.Settings.Store
import RecordLog.Settings.Environment

/-!
# What variables stand for

The text of a variable stands for a truth value, for a number or for itself
(`scalarValue_cases`), and so always for a plain value (`isPlain_of_scalarValue`).

It fails to stand for anything only if it looks like a numeral and cannot be read as one:
`exists_scalarValue` excludes that for texts with few digits and without information
separators.  These separators are trimmed when a text is looked at, but not when it is read.
-/

namespace RecordLog

/-- A text that spells neither a truth value nor a plain numeral, blanks at its ends aside. -/
def StaysText (raw : Text) : Prop :=
  raw.trimmed.lowercase ≠ Text.ofString "true" ∧ raw.trimmed.lowercase ≠ Text.ofString "false" ∧
    Numeral.shape? raw.trimmed = none

instance (raw : Text) : Decidable (StaysText raw) :=
  inferInstanceAs (Decidable (_ ∧ _ ∧ _))

/-- A text that stays text is its own value. -/
theorem scalarValue_of_staysText {raw : Text} (h : StaysText raw) :
    scalarValue raw = .ok (.str raw) := by
  simp only [scalarValue, h.1, h.2.1, h.2.2, if_false]

/-- A text that does not stay one stands for a truth value or a number, if for anything. -/
theorem scalarValue_cases {raw : Text} {v : Json} (h : scalarValue raw = .ok v) :
    StaysText raw ∧ v = .str raw ∨
      ¬ StaysText raw ∧ ((∃ b, v = .bool b) ∨ (∃ n, v = .int n) ∨ ∃ x, v = .float x) := by
  by_cases hstays : StaysText raw
  · rw [scalarValue_of_staysText hstays] at h
    exact Or.inl ⟨hstays, (Except.ok.inj h).symm⟩
  · right
    refine ⟨hstays, ?_⟩
    unfold scalarValue at h
    dsimp only at h
    split at h
    · exact Or.inl ⟨true, (Except.ok.inj h).symm⟩
    · split at h
      · exact Or.inl ⟨false, (Except.ok.inj h).symm⟩
      · next htrue hfalse =>
          split at h
          · next hshape => exact absurd ⟨htrue, hfalse, hshape⟩ hstays
          · split at h
            · next n _ => exact Or.inr (Or.inl ⟨n, (Except.ok.inj h).symm⟩)
            · cases h
          · split at h
            · next x _ => exact Or.inr (Or.inr ⟨x, (Except.ok.inj h).symm⟩)
            · cases h

/-- The value of a variable is plain. -/
theorem isPlain_of_scalarValue {raw : Text} {v : Json} (h : scalarValue raw = .ok v) :
    v.isPlain = true := by
  rcases scalarValue_cases h with ⟨_, rfl⟩ | ⟨_, ⟨b, rfl⟩ | ⟨n, rfl⟩ | ⟨x, rfl⟩⟩ <;> rfl

/-- The value of a variable is well formed. -/
theorem wellFormed_of_scalarValue {raw : Text} {v : Json} (h : scalarValue raw = .ok v) :
    v.WellFormed := by
  rcases scalarValue_cases h with ⟨_, rfl⟩ | ⟨_, ⟨b, rfl⟩ | ⟨n, rfl⟩ | ⟨x, rfl⟩⟩ <;> trivial

/-- **Texts with few digits and no separators stand for a value.** -/
theorem exists_scalarValue {raw : Text}
    (hdigits : raw.countP Text.isDecimalDigit ≤ Numeral.digitLimit)
    (hseparators : ∀ c ∈ raw, c.isSeparator = false) : ∃ v, scalarValue raw = .ok v := by
  have htrimmed := Numeral.unsurrounded_eq_trimmed hseparators
  unfold scalarValue
  dsimp only
  split
  · exact ⟨_, rfl⟩
  · split
    · exact ⟨_, rfl⟩
    · split
      · exact ⟨_, rfl⟩
      · next hshape =>
          rw [← htrimmed] at hshape
          have hfew := (Numeral.trimmed_sublist raw).countP_le.trans hdigits
          rw [← htrimmed] at hfew
          obtain ⟨n, hn⟩ := Numeral.exists_toInt? hshape hfew
          rw [hn]
          exact ⟨_, rfl⟩
      · next hshape =>
          rw [← htrimmed] at hshape
          obtain ⟨x, hx⟩ := Numeral.exists_toDouble? hshape
          rw [hx]
          exact ⟨_, rfl⟩

/-- A numeral beside a separator looks like one and is not read. -/
example : scalarValue "\x1C5" = .error .malformed := rfl

end RecordLog
