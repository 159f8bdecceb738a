/-!
# Results of steps

A result that was mapped, or handed on to another step, is a success only if the step before
was one.
-/

namespace RecordLog

variable {ε α β : Type} {x : Except ε α}

/-- A mapped outcome is a success if the outcome was one. -/
theorem map_eq_ok_iff {f : α → β} {b : β} :
    x.map f = .ok b ↔ ∃ a, x = .ok a ∧ f a = b := by
  cases x with
  | error e => exact ⟨nofun, nofun⟩
  | ok a =>
      constructor
      · intro h
        exact ⟨a, rfl, Except.ok.inj h⟩
      · rintro ⟨_, hx, rfl⟩
        rw [hx]
        rfl

/-- Two steps succeed if each of them does. -/
theorem bind_eq_ok_iff {f : α → Except ε β} {b : β} :
    x.bind f = .ok b ↔ ∃ a, x = .ok a ∧ f a = .ok b := by
  cases x with
  | error e => exact ⟨nofun, nofun⟩
  | ok a =>
      constructor
      · intro h
        exact ⟨a, rfl, h⟩
      · rintro ⟨_, hx, hf⟩
        rw [hx]
        exact hf

/-- One result, and then others. -/
theorem bind_cons_eq_ok_iff {y : Except ε (List α)} {zs : List α} :
    (x.bind fun z => y.map (z :: ·)) = .ok zs ↔
      ∃ z later, x = .ok z ∧ y = .ok later ∧ zs = z :: later := by
  simp only [bind_eq_ok_iff, map_eq_ok_iff, exists_and_left]
  simp only [eq_comm]

end RecordLog
