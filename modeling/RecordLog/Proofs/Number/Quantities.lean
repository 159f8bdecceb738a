import RecordLog.Proofs.Number.Rounding

/-!
# Quantities

Integers differ as quantities, and only the double NaN is the quantity NaN.  Apart from NaN,
equality of quantities is sameness, and they are in a strict order.
-/

namespace RecordLog.Quantity

/-- Different integers are different quantities. -/
theorem ofInt_injective : Function.Injective ofInt := fun _ _ h =>
  Int.eq_of_mul_eq_mul_right (Int.natCast_ne_zero.mpr (Nat.ne_of_gt unitsPerOne_pos)) (units.inj h)

/-- No integer is NaN. -/
theorem ofInt_ne_nan (n : Int) : ofInt n ≠ nan := nofun

/-- Only NaN has the quantity of NaN. -/
theorem ofDouble_eq_nan_iff {x : Double} : ofDouble x = nan ↔ x = .nan := by
  cases x with
  | nan => exact iff_of_true rfl rfl
  | infinite negative => cases negative <;> exact iff_of_false nofun nofun
  | finite negative m => exact iff_of_false nofun nofun

/-- Quantities are equal if they are one and the same, and not NaN. -/
theorem equal_iff {p q : Quantity} : p.equal q = true ↔ p ≠ nan ∧ p = q := by
  cases p with
  | nan => exact iff_of_false nofun fun h => h.1 rfl
  | _ => exact decide_eq_true_iff.trans (and_iff_right nofun).symm

theorem less_irrefl (p : Quantity) : p.less p = false := by
  cases p <;> simp [less]

/-- Nothing is less than NaN. -/
theorem less_nan (p : Quantity) : p.less nan = false := by
  cases p <;> rfl

/-- Of two quantities other than NaN one is less, unless they are one. -/
theorem less_or_less {p q : Quantity} (hp : p ≠ nan) (hq : q ≠ nan) (hpq : p ≠ q) :
    p.less q = true ∨ q.less p = true := by
  cases p <;> cases q <;> grind [less]

theorem less_trans {p q r : Quantity} (hpq : p.less q = true) (hqr : q.less r = true) :
    p.less r = true := by
  cases p <;> cases q <;> cases r <;> simp_all [less]
  exact Int.lt_trans hpq hqr

end RecordLog.Quantity
