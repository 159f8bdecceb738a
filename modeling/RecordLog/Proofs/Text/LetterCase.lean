import Mathlib.Data.List.Forall2
import RecordLog.Text.Lowercase

/-!
# Words in letters of any case

A word in small ASCII letters is looked for in texts of any case by taking their lower case.
Only one code point outside ASCII has its small letter in ASCII: the Kelvin sign (U+212A),
whose small letter is a `k`.  The dotted capital I leaves a combining dot behind, and a sigma
stays Greek.  So for a word without a `k`, the texts with this lower case are those that spell
it letter by letter, each in either case (`lowercase_eq_iff`).  In particular the word itself
is one of them (`lowercase_of_plain`).
-/

namespace RecordLog

/-- An ASCII code point that is no capital, and not the small `k`. -/
def CodePoint.IsPlain (c : CodePoint) : Prop :=
  c.val < 0x80 ∧ ¬ (0x41 ≤ c.val ∧ c.val ≤ 0x5A) ∧ c.val ≠ 0x6B

instance (c : CodePoint) : Decidable c.IsPlain :=
  inferInstanceAs (Decidable (_ ∧ _))

theorem CodePoint.ext_iff {c d : CodePoint} : c = d ↔ c.val = d.val := by
  cases c
  cases d
  rw [mk.injEq]

namespace Text

/-- A code point stands for a letter: it is the letter, or its ASCII capital. -/
def StandsFor (letter c : CodePoint) : Prop :=
  c = letter ∨ (0x61 ≤ letter.val ∧ letter.val ≤ 0x7A ∧ c.val + 0x20 = letter.val)

/-- A text spells a word in letters of any case. -/
def InAnyCase (word t : Text) : Prop :=
  List.Forall₂ StandsFor word t

/-! ### Small letters -/

variable {c d : CodePoint}

/-- A run covers the capitals that it steps on. -/
theorem CapitalRun.covers_iff {run : CapitalRun} {n : Nat} :
    run.covers n ↔ (run.first ≤ n ∧ n ≤ run.last) ∧ (n - run.first) % run.stride = 0 := by
  simp only [covers, Bool.and_eq_true, decide_eq_true_eq, beq_iff_eq]

/-- The capitals of ASCII. -/
def asciiCapitals : CapitalRun := ⟨0x41, 0x5A, 1, 32⟩

/-- The first run covers the capitals of ASCII. -/
theorem asciiCapitals_covers_iff {n : Nat} :
    asciiCapitals.covers n ↔ 0x41 ≤ n ∧ n ≤ 0x5A := by
  rw [CapitalRun.covers_iff, asciiCapitals, Nat.mod_one]
  exact and_iff_left rfl

/-- The other runs lie outside ASCII, and so do their small letters, except that of the Kelvin
sign. -/
theorem capitalRuns_outside_ascii :
    ∀ run ∈ capitalRuns.tail, 0x80 ≤ run.first ∧
      ((run.first = 0x212A ∧ run.last = 0x212A ∧ run.offset = 0x6B - 0x212A) ∨
        0x80 ≤ run.first + run.offset) := by
  decide +kernel

/-- A code point in ASCII is in the first run or in none. -/
theorem find?_capitalRuns_of_ascii (hc : c.val < 0x80) :
    capitalRuns.find? (·.covers c.val) =
      if 0x41 ≤ c.val ∧ c.val ≤ 0x5A then some asciiCapitals else none := by
  have hlater : capitalRuns.tail.find? (·.covers c.val) = none := by
    refine List.find?_eq_none.mpr fun run hrun hcovers => ?_
    have hout := (capitalRuns_outside_ascii run hrun).1
    have hfrom := (CapitalRun.covers_iff.mp hcovers).1.1
    omega
  have hruns : capitalRuns = asciiCapitals :: capitalRuns.tail := rfl
  rw [hruns, List.find?_cons, hlater]
  simp only [← asciiCapitals_covers_iff]
  cases asciiCapitals.covers c.val <;> rfl

/-- The small letters of ASCII stand in a row, like its capitals. -/
theorem smallLetter_of_ascii (hc : c.val < 0x80) :
    (smallLetter c).val = if 0x41 ≤ c.val ∧ c.val ≤ 0x5A then c.val + 0x20 else c.val := by
  rw [smallLetter, find?_capitalRuns_of_ascii hc]
  by_cases hcapital : 0x41 ≤ c.val ∧ c.val ≤ 0x5A
  · have hoffset : asciiCapitals.offset = 0x20 := rfl
    have hrange : (c.val + asciiCapitals.offset).toNat < 0x110000 := by omega
    rw [if_pos hcapital, if_pos hcapital]
    simp only [CodePoint.ofNatOr, dif_pos hrange]
    omega
  · rw [if_neg hcapital, if_neg hcapital]

/-- Past ASCII the Kelvin sign alone has a small letter in ASCII. -/
theorem smallLetter_of_not_ascii (hc : ¬ c.val < 0x80) :
    (smallLetter c).val = 0x6B ∨ 0x80 ≤ (smallLetter c).val := by
  rw [smallLetter]
  split
  · next run hrun =>
      have hcovers : run.covers c.val := by simpa using List.find?_some hrun
      obtain ⟨⟨hfrom, hto⟩, -⟩ := CapitalRun.covers_iff.mp hcovers
      have hlater : run ∈ capitalRuns.tail := by
        rcases List.mem_cons.mp (List.mem_of_find?_eq_some hrun) with hfirst | hlater
        · rw [hfirst] at hto
          exact absurd (Nat.lt_of_le_of_lt hto (by decide)) hc
        · exact hlater
      -- a number that no code point has would leave the capital as it is
      unfold CodePoint.ofNatOr
      split
      · rcases (capitalRuns_outside_ascii run hlater).2 with ⟨hfirst, hlast, hoffset⟩ | hout
        · left
          dsimp only
          omega
        · right
          dsimp only
          omega
      · exact .inr (Nat.not_lt.mp hc)
  · exact .inr (Nat.not_lt.mp hc)

/-- A plain code point is the small letter of what stands for it. -/
theorem smallLetter_eq_iff (hd : d.IsPlain) : smallLetter c = d ↔ StandsFor d c := by
  obtain ⟨hascii, hcapital, hkelvin⟩ := hd
  rw [StandsFor, CodePoint.ext_iff, CodePoint.ext_iff]
  by_cases hc : c.val < 0x80
  · rw [smallLetter_of_ascii hc]
    split <;> omega
  · have hletter := smallLetter_of_not_ascii hc
    omega

/-! ### Lower case -/

/-- In ASCII the lower case of a code point does not depend on its neighbours. -/
theorem lowercaseAt_of_ascii (before after : Text) (hc : c.val < 0x80) :
    lowercaseAt before c after = [smallLetter c] := by
  rw [lowercaseAt, if_neg (by omega), if_neg (by omega)]

/-- A code point starts a plain word with its lower case if it stands for the first letter. -/
theorem lowercaseAt_append_eq_cons_iff {before after rest later : Text} (hd : d.IsPlain)
    (hlater : ∀ e ∈ later, e.IsPlain) :
    lowercaseAt before c after ++ rest = d :: later ↔ StandsFor d c ∧ rest = later := by
  constructor
  · intro h
    unfold lowercaseAt at h
    split at h
    · have hdot : ¬ (CodePoint.ofChar '\u0307').IsPlain := by decide
      obtain ⟨-, hrest⟩ := List.cons.inj h
      exact absurd (hlater _ (hrest ▸ List.mem_cons_self)) hdot
    · split at h
      · have hfinal : ¬ (CodePoint.ofChar 'ς').IsPlain := by decide
        have hinner : ¬ (CodePoint.ofChar 'σ').IsPlain := by decide
        split at h
        · exact absurd ((List.cons.inj h).1 ▸ hd) hfinal
        · exact absurd ((List.cons.inj h).1 ▸ hd) hinner
      · obtain ⟨hfirst, hrest⟩ := List.cons.inj h
        exact ⟨(smallLetter_eq_iff hd).mp hfirst, hrest⟩
  · rintro ⟨hstands, rfl⟩
    have hc : c.val < 0x80 := by
      have hascii := hd.1
      rcases hstands with rfl | ⟨_, _, _⟩ <;> omega
    rw [lowercaseAt_of_ascii before after hc, (smallLetter_eq_iff hd).mpr hstands,
      List.singleton_append]

/-- No code point vanishes in lower case. -/
theorem lowercaseAt_ne_nil (before : Text) (c : CodePoint) (after : Text) :
    lowercaseAt before c after ≠ [] := by
  unfold lowercaseAt
  split
  · exact List.cons_ne_nil _ _
  · split
    · split <;> exact List.cons_ne_nil _ _
    · exact List.cons_ne_nil _ _

/-- The lower case of a text is a plain word exactly if the text spells that word in any case,
whatever stands before it. -/
theorem lowercaseAfter_eq_iff {word : Text} (hword : ∀ d ∈ word, d.IsPlain) (before t : Text) :
    lowercaseAfter before t = word ↔ InAnyCase word t := by
  induction t generalizing before word with
  | nil => rw [lowercaseAfter, InAnyCase, List.forall₂_nil_right_iff, eq_comm]
  | cons c t ih =>
      rw [lowercaseAfter]
      cases word with
      | nil =>
          rw [List.append_eq_nil_iff, InAnyCase, List.forall₂_nil_left_iff]
          exact iff_of_false (fun h => lowercaseAt_ne_nil before c t h.1) (List.cons_ne_nil c t)
      | cons d later =>
          obtain ⟨hd, hlater⟩ := List.forall_mem_cons.mp hword
          rw [lowercaseAt_append_eq_cons_iff hd hlater, ih hlater, InAnyCase, InAnyCase,
            List.forall₂_cons]

/-- The texts that have a plain word as their lower case spell it in letters of any case. -/
theorem lowercase_eq_iff {word : Text} (hword : ∀ d ∈ word, d.IsPlain) (t : Text) :
    lowercase t = word ↔ InAnyCase word t :=
  lowercaseAfter_eq_iff hword [] t

theorem InAnyCase.refl (word : Text) : InAnyCase word word :=
  List.forall₂_same.mpr fun _ _ => .inl rfl

/-- A plain word is its own lower case. -/
theorem lowercase_of_plain {word : Text} (hword : ∀ d ∈ word, d.IsPlain) :
    lowercase word = word :=
  (lowercase_eq_iff hword word).mpr (.refl word)

end Text

end RecordLog
