import RecordLog.Number.Double

/-!
# Rounding

What rounding keeps.  A common factor of both parts of a quotient does not matter
(`roundUnits_mul_right`), and a quotient that is the units of a finite double is that
double (`roundUnits_exact`).

Whole numbers below 2^53 have at most 53 significant bits, so they are doubles
(`Double.ofIntRounded_natCast`), and as long as a sum stays there, adding loses nothing
(`Double.ofIntRounded_add`).
-/

namespace RecordLog

theorem twoTo_pos (n : Nat) : 0 < twoTo n := Nat.two_pow_pos n

theorem twoTo_add (m n : Nat) : twoTo (m + n) = twoTo m * twoTo n := Nat.pow_add 2 m n

theorem twoTo_le_twoTo {m n : Nat} (h : m ≤ n) : twoTo m ≤ twoTo n :=
  Nat.pow_le_pow_right Nat.two_pos h

theorem twoTo_dvd_twoTo {m n : Nat} (h : m ≤ n) : twoTo m ∣ twoTo n := Nat.pow_dvd_pow 2 h

theorem unitsPerOne_pos : 0 < unitsPerOne := twoTo_pos 1074

/-! ### Quotients -/

/-- A factor of both sides of a quotient does not change how it is rounded. -/
theorem roundQuotient_mul_right (num den : Nat) {c : Nat} (hc : 0 < c) :
    roundQuotient (num * c) (den * c) = roundQuotient num den := by
  have hquotient : num * c / (den * c) = num / den := Nat.mul_div_mul_right num den hc
  have hrest : num * c % (den * c) = num % den * c := Nat.mul_mod_mul_right c num den
  have hbelow : 2 * (num % den * c) < den * c ↔ 2 * (num % den) < den := by
    rw [← Nat.mul_assoc]
    exact Nat.mul_lt_mul_right hc
  have habove : den * c < 2 * (num % den * c) ↔ den < 2 * (num % den) := by
    rw [← Nat.mul_assoc]
    exact Nat.mul_lt_mul_right hc
  simp only [roundQuotient, hquotient, hrest, hbelow, habove]

/-- A whole quotient is not rounded. -/
theorem roundQuotient_exact (q : Nat) {den : Nat} (hden : 0 < den) :
    roundQuotient (q * den) den = q := by
  have hrest : q * den % den = 0 := Nat.mul_mod_left q den
  rw [roundQuotient, hrest, Nat.mul_div_cancel q hden]
  exact if_pos hden

/-- Only the value of a quotient matters. -/
theorem roundUnits_mul_right (num den : Nat) {c : Nat} (hc : 0 < c) :
    roundUnits (num * c) (den * c) = roundUnits num den := by
  rw [roundUnits, roundUnits, Nat.mul_div_mul_right num den hc, Nat.mul_right_comm,
    roundQuotient_mul_right num _ hc]

/-- Nothing is lost of a representable magnitude. -/
theorem roundUnits_exact {units den : Nat} (hunits : Representable units) (hden : 0 < den) :
    roundUnits (units * den) den = units := by
  rw [roundUnits, Nat.mul_div_cancel units hden]
  generalize hstep : twoTo (units.log2 - 52) = step
  have hpos : 0 < step := hstep ▸ twoTo_pos _
  have hdvd : step ∣ units := Nat.dvd_of_mod_eq_zero (hstep ▸ hunits.2)
  obtain ⟨k, rfl⟩ := hdvd
  have hnum : step * k * den = k * (den * step) := by ac_rfl
  rw [hnum, roundQuotient_exact k (Nat.mul_pos hden hpos), Nat.mul_comm]

/-! ### Numbers with few significant bits -/

/-- A number of at most 53 bits, times a power of two within the range, is representable. -/
theorem Representable.of_mul_twoTo {n k : Nat} (hn : n < twoTo 53) (hk : k ≤ 2045) :
    Representable (n * twoTo k) := by
  have hlt : n * twoTo k < twoTo (53 + k) := by
    rw [twoTo_add]
    exact Nat.mul_lt_mul_of_pos_right hn (twoTo_pos k)
  constructor
  · exact Nat.lt_of_lt_of_le hlt (twoTo_le_twoTo (by omega))
  · refine Nat.mod_eq_zero_of_dvd (Nat.dvd_trans (twoTo_dvd_twoTo ?_) (Nat.dvd_mul_left _ n))
    by_cases hzero : n * twoTo k = 0
    · rw [hzero, Nat.log2_zero]
      omega
    · have hlog : (n * twoTo k).log2 < 53 + k := (Nat.log2_lt hzero).mpr hlt
      omega

theorem representable_zero : Representable 0 := by
  have h : Representable (0 * twoTo 0) := .of_mul_twoTo (twoTo_pos 53) (Nat.zero_le 2045)
  rwa [Nat.zero_mul] at h

/-- A whole number of at most 53 bits is representable. -/
theorem representable_whole {n : Nat} (hn : n < twoTo 53) : Representable (n * unitsPerOne) :=
  .of_mul_twoTo hn (by omega)

namespace Double

/-- A representable number of units is not rounded. -/
theorem rounded_exact {units : Nat} (hunits : Representable units) (negative : Bool) :
    rounded negative units 1 = finite negative ⟨units, hunits⟩ := by
  have hround : roundUnits units 1 = units := by
    simpa only [Nat.mul_one] using roundUnits_exact hunits Nat.one_pos
  rw [rounded, hround, ofUnits, dif_pos hunits]

/-- A whole number below 2^53 is a double. -/
theorem ofIntRounded_natCast {n : Nat} (hn : n < twoTo 53) :
    ofIntRounded n = finite false ⟨n * unitsPerOne, representable_whole hn⟩ := by
  rw [ofIntRounded, Int.natAbs_natCast, decide_eq_false (Int.not_lt.mpr (Int.natCast_nonneg n)),
    rounded_exact (representable_whole hn)]

/-- The integer zero is rounded to the double zero. -/
theorem ofIntRounded_zero : ofIntRounded 0 = zero := by
  rw [zero, ofUnits, dif_pos representable_zero]
  simpa only [Int.natCast_zero, Nat.zero_mul] using ofIntRounded_natCast (twoTo_pos 53)

/-- Adding whole numbers is exact as long as the sum is below 2^53. -/
theorem ofIntRounded_add {m n : Nat} (h : m + n < twoTo 53) :
    (ofIntRounded m).add (ofIntRounded n) = ofIntRounded ↑(m + n) := by
  have hm : m < twoTo 53 := Nat.lt_of_le_of_lt (Nat.le_add_right m n) h
  have hn : n < twoTo 53 := Nat.lt_of_le_of_lt (Nat.le_add_left n m) h
  rw [ofIntRounded_natCast hm, ofIntRounded_natCast hn]
  have htotal : ((m * unitsPerOne : Nat) : Int) + (n * unitsPerOne : Nat) =
      ((m + n) * unitsPerOne : Nat) := by
    rw [← Int.natCast_add, Nat.add_mul]
  simp only [add, signedUnits, Bool.false_eq_true, if_false, htotal, Bool.false_and,
    Int.natAbs_natCast, decide_eq_false (Int.not_lt.mpr (Int.natCast_nonneg _))]
  split
  · next hzero =>
      have hsum : m + n = 0 :=
        (Nat.mul_eq_zero.mp (Int.natCast_eq_zero.mp hzero)).resolve_right
          (Nat.ne_of_gt unitsPerOne_pos)
      rw [hsum, Int.natCast_zero, ofIntRounded_zero, zero]
  · rw [rounded_exact (representable_whole h), ofIntRounded_natCast h]

/-- An integer of at most 53 bits comes back from its double. -/
theorem toInt?_ofIntRounded {n : Nat} (hn : n < twoTo 53) : (ofIntRounded n).toInt? = some ↑n := by
  rw [ofIntRounded_natCast hn]
  simp only [toInt?, Nat.mul_mod_left, Nat.mul_div_cancel n unitsPerOne_pos, if_true,
    Bool.false_eq_true, if_false]

end Double

end RecordLog
