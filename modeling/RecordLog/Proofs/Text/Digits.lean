import Mathlib.Data.List.Induction
import RecordLog.Number.Decimal
import RecordLog.Proofs.Number.Shortest
import RecordLog.Text.Digit

/-!
# Decimal digits

`Text.digits` lists the digits of a number, and `Text.digitsValue` is the number that a list
of digits spells.  They belong together (`digitsValue_digits`), and the list is as short as
it can be: it starts with a zero only if it is a zero (`digits_whole`), so a number below a
power of ten has no more digits than that power says (`length_digits_le`).
-/

namespace RecordLog.Text

/-! ### Values -/

/-- A digit at the end makes room for itself. -/
theorem digitsValue_concat (ds : List Nat) (d : Nat) :
    digitsValue (ds ++ [d]) = 10 * digitsValue ds + d := by
  rw [digitsValue, List.foldl_append]
  rfl

/-- Digits in front count as many powers of ten more as there are digits behind them. -/
theorem digitsValue_append (ds es : List Nat) :
    digitsValue (ds ++ es) = digitsValue ds * tenTo es.length + digitsValue es := by
  induction es using List.reverseRecOn with
  | nil =>
      have hone : tenTo ([] : List Nat).length = 1 := rfl
      rw [List.append_nil, hone, Nat.mul_one]
      rfl
  | append_singleton es e ih =>
      rw [← List.append_assoc, digitsValue_concat, digitsValue_concat, ih, List.length_append,
        List.length_singleton, tenTo_succ, Nat.mul_add, ← Nat.mul_assoc (digitsValue ds),
        Nat.mul_comm 10 (_ * _), Nat.add_assoc]

theorem digitsValue_zeros (count : Nat) : digitsValue (List.replicate count 0) = 0 := by
  induction count with
  | zero => rfl
  | succ count ih =>
      rw [List.replicate_succ', digitsValue_concat, ih]

/-- Zeros in front do not count. -/
theorem digitsValue_zeros_append (count : Nat) (ds : List Nat) :
    digitsValue (List.replicate count 0 ++ ds) = digitsValue ds := by
  rw [digitsValue_append, digitsValue_zeros, Nat.zero_mul, Nat.zero_add]

/-- Zeros at the end count as powers of ten. -/
theorem digitsValue_append_zeros (ds : List Nat) (count : Nat) :
    digitsValue (ds ++ List.replicate count 0) = digitsValue ds * tenTo count := by
  rw [digitsValue_append, digitsValue_zeros, List.length_replicate, Nat.add_zero]

/-- A number is less than the power of ten with as many zeros as it has digits. -/
theorem digitsValue_lt {ds : List Nat} (hds : ∀ d ∈ ds, d < 10) :
    digitsValue ds < tenTo ds.length := by
  induction ds using List.reverseRecOn with
  | nil => exact Nat.one_pos
  | append_singleton ds d ih =>
      have hd : d < 10 := hds d List.mem_concat_self
      have hfront := ih fun e he => hds e (List.mem_append_left _ he)
      rw [digitsValue_concat, List.length_append, List.length_singleton, tenTo_succ]
      omega

/-! ### The digits of a number -/

/-- Digits are put in front of the later ones. -/
theorem digitsOnto_eq_append (fuel n : Nat) (later : List Nat) :
    digitsOnto fuel n later = digitsOnto fuel n [] ++ later := by
  induction fuel generalizing n later with
  | zero => rfl
  | succ fuel ih =>
      rw [digitsOnto, digitsOnto]
      split
      · rfl
      · rw [ih _ (_ :: later), ih _ [_], List.append_assoc, List.singleton_append]

/-- Any fuel that is larger than the number is enough. -/
theorem digitsOnto_fuel {fuel more n : Nat} (hfuel : n < fuel) (hmore : n < more) :
    digitsOnto fuel n [] = digitsOnto more n [] := by
  induction fuel generalizing more n with
  | zero => omega
  | succ fuel ih =>
      obtain ⟨more, rfl⟩ : ∃ k, more = k + 1 := ⟨more - 1, by omega⟩
      rw [digitsOnto, digitsOnto]
      split
      · rfl
      · rw [digitsOnto_eq_append, digitsOnto_eq_append more,
          ih (by omega) (by omega : n / 10 < more)]

/-- A number below ten is one digit. -/
theorem digits_of_lt {n : Nat} (hn : n < 10) : digits n = [n] := by
  rw [digits, digitsOnto, if_pos hn]

/-- The last digit of a number is what is left when it is divided by ten. -/
theorem digits_of_le {n : Nat} (hn : 10 ≤ n) : digits n = digits (n / 10) ++ [n % 10] := by
  have hfuel : digitsOnto n (n / 10) [] = digitsOnto (n / 10 + 1) (n / 10) [] :=
    digitsOnto_fuel (by omega) (by omega)
  rw [digits, digitsOnto, if_neg (Nat.not_lt.mpr hn), digitsOnto_eq_append, hfuel, digits]

/-- The digits of a number have its value. -/
theorem digitsValue_digits (n : Nat) : digitsValue (digits n) = n := by
  induction n using Nat.strongRecOn with
  | ind n ih =>
      by_cases hn : n < 10
      · rw [digits_of_lt hn]
        exact Nat.zero_add n
      · rw [digits_of_le (by omega), digitsValue_concat, ih (n / 10) (by omega)]
        omega

/-- Each digit of a number is less than ten. -/
theorem digits_lt_ten {n d : Nat} (hd : d ∈ digits n) : d < 10 := by
  induction n using Nat.strongRecOn with
  | ind n ih =>
      by_cases hn : n < 10
      · rw [digits_of_lt hn, List.mem_singleton] at hd
        omega
      · rw [digits_of_le (by omega), List.mem_append, List.mem_singleton] at hd
        rcases hd with hd | hd
        · exact ih (n / 10) (by omega) hd
        · omega

/-- The digits of a whole number as it is written: a zero on its own, or digits that do not
start with zero. -/
def Whole (ds : List Nat) : Prop :=
  ds = [0] ∨ ∃ d later, ds = d :: later ∧ d ≠ 0

/-- The digits of a number have no zero in front, but for zero itself. -/
theorem digits_whole (n : Nat) : Whole (digits n) := by
  induction n using Nat.strongRecOn with
  | ind n ih =>
      by_cases hn : n < 10
      · rw [digits_of_lt hn]
        by_cases hzero : n = 0
        · exact Or.inl (by rw [hzero])
        · exact Or.inr ⟨n, [], rfl, hzero⟩
      · rw [digits_of_le (by omega)]
        rcases ih (n / 10) (by omega) with hzero | ⟨d, later, hds, hd⟩
        · have hvalue := digitsValue_digits (n / 10)
          rw [hzero] at hvalue
          have hnone : digitsValue [0] = 0 := rfl
          omega
        · exact Or.inr ⟨d, later ++ [n % 10], by rw [hds, List.cons_append], hd⟩

theorem Whole.ne_nil {ds : List Nat} (h : Whole ds) : ds ≠ [] := by
  rcases h with rfl | ⟨d, later, rfl, _⟩
  · exact List.cons_ne_nil _ _
  · exact List.cons_ne_nil _ _

/-- Digits that do not start with zero spell at least the power of ten of their length. -/
theorem tenTo_le_digitsValue {d : Nat} (hd : d ≠ 0) (later : List Nat) :
    tenTo later.length ≤ digitsValue (d :: later) := by
  have hsplit : digitsValue (d :: later) = d * tenTo later.length + digitsValue later := by
    rw [← List.singleton_append, digitsValue_append]
    congr 2
    exact Nat.zero_add d
  rw [hsplit]
  exact Nat.le_trans (Nat.le_mul_of_pos_left _ (Nat.pos_of_ne_zero hd)) (Nat.le_add_right _ _)

/-- A number has at most as many digits as any list of digits that spells it. -/
theorem length_digits_le {ds : List Nat} (hds : ∀ d ∈ ds, d < 10) (hne : ds ≠ []) :
    (digits (digitsValue ds)).length ≤ ds.length := by
  rcases digits_whole (digitsValue ds) with hzero | ⟨d, later, hdigits, hd⟩
  · rw [hzero]
    exact List.length_pos_iff.mpr hne
  · have hlow := tenTo_le_digitsValue hd later
    rw [← hdigits, digitsValue_digits] at hlow
    have hlt := Nat.lt_of_le_of_lt hlow (digitsValue_lt hds)
    rw [hdigits, List.length_cons]
    exact (Nat.pow_lt_pow_iff_right (by decide)).mp hlt

end RecordLog.Text
