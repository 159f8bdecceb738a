import Mathlib.Data.List.Lex
import RecordLog.Text

/-!
# The order of texts

Texts are in the order of the numbers of their code points (`Text.precedes_iff`), which is a
linear order.
-/

namespace RecordLog.Text

/-- The numbers of the code points of a text. -/
def points (t : Text) : List ℕ :=
  t.map CodePoint.val

/-- Texts are the same if the numbers of their code points are. -/
theorem points_injective : Function.Injective points := by
  refine List.map_injective_iff.mpr ?_
  rintro ⟨m, _⟩ ⟨n, _⟩ rfl
  rfl

/-- Texts are ordered as the lists of their code points. -/
theorem precedes_iff {s t : Text} : precedes s t ↔ points s < points t := by
  induction s generalizing t with
  | nil => cases t <;> simp [precedes, points]
  | cons c s ih =>
      cases t with
      | nil => simp [precedes, points]
      | cons d t =>
          have h := ih (t := t)
          simp only [points] at h
          simp [precedes, points, List.cons_lt_cons_iff, h]

theorem precedes_irrefl (t : Text) : precedes t t = false := by
  rw [← Bool.not_eq_true, precedes_iff]
  exact lt_irrefl _

/-- Of two different texts one precedes the other. -/
theorem precedes_or_precedes {s t : Text} (h : s ≠ t) :
    precedes s t = true ∨ precedes t s = true := by
  rw [precedes_iff, precedes_iff]
  exact lt_or_gt_of_ne fun heq => h (points_injective heq)

theorem precedes_trans {s t u : Text} (hst : precedes s t) (htu : precedes t u) :
    precedes s u := by
  rw [precedes_iff] at *
  exact lt_trans hst htu

end RecordLog.Text
