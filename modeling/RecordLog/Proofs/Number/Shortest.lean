import RecordLog.Number.Shortest
import RecordLog.Proofs.Number.Rounding

/-!
# Shortest decimals read back

A decimal is read by rounding its value, and `Decimal.nearest` is the magnitude that this
gives.  The limits on exponents in `Decimal.toDouble` only save work: past them the value
is beyond all doubles, or so small that it rounds to zero (`Decimal.toDouble_eq`).  So all
that matters of a decimal is its value: a power of ten may move between the digits and the
exponent (`Decimal.nearest_shift`).

The search for the shortest decimal of a magnitude stops only at decimals that read as it,
and falls back on its exact value, which does too; dropping zeros keeps the value.  Hence
`Decimal.toDouble_shortest`: the shortest decimal of a magnitude reads as that magnitude.
-/

namespace RecordLog

theorem tenTo_pos (n : Nat) : 0 < tenTo n := Nat.pow_pos (by decide)

theorem tenTo_add (m n : Nat) : tenTo (m + n) = tenTo m * tenTo n := Nat.pow_add 10 m n

theorem tenTo_succ (n : Nat) : tenTo (n + 1) = tenTo n * 10 := Nat.pow_succ 10 n

theorem tenTo_le_tenTo {m n : Nat} (h : m ≤ n) : tenTo m ≤ tenTo n :=
  Nat.pow_le_pow_right (by decide) h

theorem tenTo_eq (n : Nat) : tenTo n = Nat.pow 5 n * twoTo n := Nat.mul_pow 5 2 n

theorem two_mul_twoTo (n : Nat) : 2 * twoTo n = twoTo (n + 1) := by
  rw [twoTo_add, Nat.mul_comm]
  rfl

/-- Three twos are less than a ten; this bound is coarse, and enough. -/
theorem twoTo_le_tenTo {m n : Nat} (h : m ≤ 3 * n) : twoTo m ≤ tenTo n := by
  have hcube : twoTo (3 * n) = 8 ^ n := Nat.pow_mul 2 3 n
  calc twoTo m ≤ twoTo (3 * n) := twoTo_le_twoTo h
    _ = 8 ^ n := hcube
    _ ≤ tenTo n := Nat.pow_le_pow_left (by decide) n

/-! ### Rounding at the ends of the range -/

/-- Only the value of a quotient matters. -/
theorem roundUnits_eq_of_cross {num den num' den' : Nat} (hden : 0 < den) (hden' : 0 < den')
    (h : num * den' = num' * den) : roundUnits num den = roundUnits num' den' := by
  rw [← roundUnits_mul_right num den hden', ← roundUnits_mul_right num' den' hden, h,
    Nat.mul_comm den den']

/-- Rounding a quotient does not fall below its whole part. -/
theorem div_le_roundQuotient (num den : Nat) : num / den ≤ roundQuotient num den := by
  simp only [roundQuotient]
  split
  · exact Nat.le_refl _
  · split
    · exact Nat.le_succ _
    · split
      · exact Nat.le_refl _
      · exact Nat.le_succ _

/-- Rounding does not cross a power of two downwards. -/
theorem twoTo_le_roundUnits {k num den : Nat} (hden : 0 < den) (h : twoTo k * den ≤ num) :
    twoTo k ≤ roundUnits num den := by
  have hq : twoTo k ≤ num / den := (Nat.le_div_iff_mul_le hden).mpr h
  generalize hlog : (num / den).log2 = l
  have hne : num / den ≠ 0 := Nat.ne_of_gt (Nat.lt_of_lt_of_le (twoTo_pos k) hq)
  have hkl : k ≤ l := hlog ▸ (Nat.le_log2 hne).mpr hq
  have hlq : twoTo l ≤ num / den := hlog ▸ Nat.log2_self_le hne
  have hsplit : twoTo l = twoTo (l - (l - 52)) * twoTo (l - 52) := by
    rw [← twoTo_add]
    congr 1
    omega
  have hsteps : twoTo (l - (l - 52)) ≤ num / (den * twoTo (l - 52)) := by
    rw [← Nat.div_div_eq_div_mul, Nat.le_div_iff_mul_le (twoTo_pos _), ← hsplit]
    exact hlq
  rw [roundUnits, hlog]
  calc twoTo k ≤ twoTo l := twoTo_le_twoTo hkl
    _ = twoTo (l - (l - 52)) * twoTo (l - 52) := hsplit
    _ ≤ roundQuotient num (den * twoTo (l - 52)) * twoTo (l - 52) :=
      Nat.mul_le_mul_right _ (Nat.le_trans hsteps (div_le_roundQuotient _ _))

/-- Less than half a unit rounds to nothing. -/
theorem roundUnits_eq_zero {num den : Nat} (h : 2 * num < den) : roundUnits num den = 0 := by
  have hq : num / den = 0 := Nat.div_eq_of_lt (by omega)
  have hr : num % den = num := Nat.mod_eq_of_lt (by omega)
  have hstep : twoTo ((0 : Nat).log2 - 52) = 1 := rfl
  simp only [roundUnits, roundQuotient, hq, hstep, Nat.mul_one, hr, if_pos h]

namespace Decimal

/-! ### Decimal digits -/

/-- With enough fuel, the length that is counted says between which powers of ten a number lies. -/
theorem lengthAux_bounds {fuel n : Nat} (hn : n ≠ 0) (hfuel : n < tenTo fuel) :
    0 < lengthAux fuel n ∧ tenTo (lengthAux fuel n - 1) ≤ n ∧ n < tenTo (lengthAux fuel n) := by
  induction fuel generalizing n with
  | zero =>
      have hone : tenTo 0 = 1 := rfl
      omega
  | succ fuel ih =>
      rw [lengthAux]
      split
      · next hlt =>
          refine ⟨Nat.one_pos, ?_, hlt⟩
          have hone : tenTo (1 - 1) = 1 := rfl
          omega
      · next hge =>
          rw [tenTo_succ] at hfuel
          obtain ⟨hpos, hlow, hhigh⟩ := ih (n := n / 10) (by omega) (by omega)
          refine ⟨Nat.succ_pos _, ?_, ?_⟩
          · have hsplit : lengthAux fuel (n / 10) + 1 - 1 = lengthAux fuel (n / 10) - 1 + 1 := by
              omega
            rw [hsplit, tenTo_succ]
            omega
          · rw [tenTo_succ]
            omega

/-- The length of a number says between which powers of ten it lies. -/
theorem length_bounds {n : Nat} (hn : n ≠ 0) :
    0 < length n ∧ tenTo (length n - 1) ≤ n ∧ n < tenTo (length n) := by
  refine lengthAux_bounds hn (Nat.lt_of_lt_of_le Nat.lt_log2_self ?_)
  exact Nat.pow_le_pow_left (by decide) _

/-! ### Reading a decimal -/

/-- The magnitude that is nearest to a decimal, in units; it may be past all finite ones. -/
def nearest (d : Decimal) : Nat :=
  roundUnits d.unitsQuotient.1 d.unitsQuotient.2

/-- The units of a decimal are not divided by zero. -/
theorem unitsQuotient_pos (d : Decimal) : 0 < d.unitsQuotient.2 := by
  unfold unitsQuotient
  split
  · exact Nat.one_pos
  · exact tenTo_pos _

/-- A decimal reads as a magnitude exactly if this is the nearest one. -/
theorem readsAs_iff {units : Nat} {d : Decimal} : readsAs units d = true ↔ d.nearest = units :=
  beq_iff_eq

/-- Without a negative exponent the units are a whole number. -/
theorem nearest_ofNat (n e : Nat) :
    nearest ⟨n, .ofNat e⟩ = roundUnits (n * tenTo e * unitsPerOne) 1 := rfl

/-- With a negative exponent the units are divided by a power of ten. -/
theorem nearest_negSucc (n e : Nat) :
    nearest ⟨n, .negSucc e⟩ = roundUnits (n * unitsPerOne) (tenTo (e + 1)) := rfl

/-- A factor of ten may move from the digits to the exponent. -/
theorem nearest_ten_mul (n : Nat) (e : Int) : nearest ⟨n * 10, e⟩ = nearest ⟨n, e + 1⟩ := by
  match e with
  | .ofNat e =>
      have hnext : Int.ofNat e + 1 = Int.ofNat (e + 1) := rfl
      rw [hnext, nearest_ofNat, nearest_ofNat, tenTo_succ, Nat.mul_assoc n, Nat.mul_comm 10]
  | .negSucc 0 =>
      have hnext : Int.negSucc 0 + 1 = Int.ofNat 0 := rfl
      have hone : tenTo 0 = 1 := rfl
      have hten : tenTo (0 + 1) = 10 := rfl
      rw [hnext, nearest_negSucc, nearest_ofNat, hone, hten, Nat.mul_right_comm, Nat.mul_one]
      refine roundUnits_eq_of_cross (by decide) Nat.one_pos ?_
      rw [Nat.mul_one]
  | .negSucc (k + 1) =>
      have hnext : Int.negSucc (k + 1) + 1 = Int.negSucc k := rfl
      rw [hnext, nearest_negSucc, nearest_negSucc, tenTo_succ (k + 1), Nat.mul_right_comm]
      exact roundUnits_mul_right _ _ (by decide)

/-- A power of ten may move from the digits to the exponent. -/
theorem nearest_shift (n k : Nat) (e : Int) : nearest ⟨n * tenTo k, e⟩ = nearest ⟨n, e + k⟩ := by
  induction k generalizing e with
  | zero =>
      have hone : tenTo 0 = 1 := rfl
      rw [hone, Nat.mul_one, Int.natCast_zero, Int.add_zero]
  | succ k ih =>
      rw [tenTo_succ, ← Nat.mul_assoc, nearest_ten_mul, ih]
      congr 2
      omega

/-- Zero is nearest to a decimal of zero digits. -/
theorem nearest_of_digits_eq_zero {d : Decimal} (hd : d.digits = 0) : d.nearest = 0 := by
  refine roundUnits_eq_zero ?_
  have hnum : d.unitsQuotient.1 = 0 := by
    unfold unitsQuotient
    split <;> simp only [hd, Nat.zero_mul]
  rw [hnum]
  exact d.unitsQuotient_pos

/-- What is at least 10^400 is past all doubles. -/
theorem unitsLimit_le_nearest {d : Decimal} (hd : d.digits ≠ 0)
    (h : d.exponent + length d.digits > 400) : unitsLimit ≤ d.nearest := by
  obtain ⟨hpos, hlow, _⟩ := length_bounds hd
  refine twoTo_le_roundUnits d.unitsQuotient_pos ?_
  have hlimit : twoTo 2098 ≤ tenTo 400 * unitsPerOne := by
    have hsplit : twoTo 2098 = twoTo 1024 * unitsPerOne := by rw [unitsPerOne, ← twoTo_add]
    have hpower : twoTo 1024 ≤ tenTo 400 := twoTo_le_tenTo (m := 1024) (n := 400) (by decide)
    rw [hsplit]
    exact Nat.mul_le_mul_right unitsPerOne hpower
  unfold unitsQuotient
  split
  · next e he =>
      rw [he, Int.ofNat_eq_natCast] at h
      have hvalue : tenTo 400 ≤ d.digits * tenTo e := by
        calc tenTo 400 ≤ tenTo (length d.digits - 1 + e) := tenTo_le_tenTo (by omega)
          _ = tenTo (length d.digits - 1) * tenTo e := tenTo_add _ _
          _ ≤ d.digits * tenTo e := Nat.mul_le_mul_right _ hlow
      rw [Nat.mul_one]
      exact Nat.le_trans hlimit (Nat.mul_le_mul_right _ hvalue)
  · next e he =>
      rw [he] at h
      have hvalue : tenTo 400 * tenTo (e + 1) ≤ d.digits := by
        calc tenTo 400 * tenTo (e + 1) = tenTo (400 + (e + 1)) := (tenTo_add _ _).symm
          _ ≤ tenTo (length d.digits - 1) := tenTo_le_tenTo (by omega)
          _ ≤ d.digits := hlow
      calc twoTo 2098 * tenTo (e + 1) ≤ tenTo 400 * unitsPerOne * tenTo (e + 1) :=
            Nat.mul_le_mul_right _ hlimit
        _ = tenTo 400 * tenTo (e + 1) * unitsPerOne := Nat.mul_right_comm _ _ _
        _ ≤ d.digits * unitsPerOne := Nat.mul_le_mul_right _ hvalue

/-- What is less than 10^-400 is nearest to zero. -/
theorem nearest_eq_zero {d : Decimal} (hd : d.digits ≠ 0)
    (h : d.exponent + length d.digits < -400) : d.nearest = 0 := by
  obtain ⟨_, _, hhigh⟩ := length_bounds hd
  refine roundUnits_eq_zero ?_
  unfold unitsQuotient
  split
  · next e he =>
      rw [he, Int.ofNat_eq_natCast] at h
      omega
  · next e he =>
      rw [he] at h
      have hunits : 2 * unitsPerOne ≤ tenTo 400 := by
        rw [unitsPerOne, two_mul_twoTo]
        exact twoTo_le_tenTo (m := 1075) (n := 400) (by decide)
      calc 2 * (d.digits * unitsPerOne) = d.digits * (2 * unitsPerOne) := Nat.mul_left_comm _ _ _
        _ < tenTo (length d.digits) * (2 * unitsPerOne) :=
          Nat.mul_lt_mul_of_pos_right hhigh (Nat.mul_pos Nat.two_pos unitsPerOne_pos)
        _ ≤ tenTo (length d.digits) * tenTo 400 := Nat.mul_le_mul_left _ hunits
        _ = tenTo (length d.digits + 400) := (tenTo_add _ _).symm
        _ ≤ tenTo (e + 1) := tenTo_le_tenTo (by omega)

/-- Reading a decimal is rounding its value. -/
theorem toDouble_eq (negative : Bool) (d : Decimal) :
    d.toDouble negative = .ofUnits negative d.nearest := by
  rw [toDouble]
  split
  · next hd => rw [nearest_of_digits_eq_zero hd]
  · next hd =>
      split
      · next hhigh =>
          have hpast : ¬ Representable d.nearest :=
            fun hrep => Nat.not_le_of_lt hrep.1 (unitsLimit_le_nearest hd hhigh)
          rw [Double.ofUnits, dif_neg hpast]
      · split
        · next hlow => rw [nearest_eq_zero hd hlow]
        · rfl

/-! ### The search -/

/-- The exact decimal of a magnitude reads as the magnitude. -/
theorem nearest_exact (m : Magnitude) : (exact m.units).nearest = m.units := by
  have hexponent : (-1074 : Int) = Int.negSucc 1073 := rfl
  have hpower : ∀ k, roundUnits (m.units * Nat.pow 5 k * twoTo k) (tenTo k) = m.units := by
    intro k
    rw [Nat.mul_assoc, ← tenTo_eq]
    exact roundUnits_exact m.representable (tenTo_pos k)
  rw [exact, hexponent, nearest_negSucc]
  exact hpower 1074

/-- The search for few digits keeps to decimals that read as the magnitude. -/
theorem nearest_searchShortest (m : Magnitude) (point : Int) (fuel count : Nat) :
    (searchShortest m.units point fuel count).nearest = m.units := by
  induction fuel generalizing count with
  | zero => exact nearest_exact m
  | succ fuel ih =>
      rw [searchShortest]
      split
      · next d hfind => exact readsAs_iff.mp (List.find?_some hfind)
      · exact ih (count + 1)

/-- Zeros at the end of the digits may be taken off. -/
theorem nearest_stripped (fuel : Nat) (d : Decimal) : (stripped fuel d).nearest = d.nearest := by
  induction fuel generalizing d with
  | zero => rfl
  | succ fuel ih =>
      rw [stripped]
      split
      · next hzero =>
          have hten : d.digits / 10 * 10 = d.digits :=
            Nat.div_mul_cancel (Nat.dvd_of_mod_eq_zero hzero.2)
          rw [ih, ← nearest_ten_mul, hten]
      · rfl

/-- The shortest decimal of a magnitude reads as the magnitude. -/
theorem nearest_shortest (m : Magnitude) : (shortest m).nearest = m.units := by
  rw [shortest]
  split
  · next hzero => rw [nearest_of_digits_eq_zero rfl, hzero]
  · rw [nearest_stripped, nearest_searchShortest]

/-- The shortest decimal of a magnitude reads as that magnitude. -/
theorem toDouble_shortest (negative : Bool) (m : Magnitude) :
    (shortest m).toDouble negative = .finite negative m := by
  rw [toDouble_eq, nearest_shortest, Double.ofUnits, dif_pos m.representable]

end Decimal

end RecordLog
