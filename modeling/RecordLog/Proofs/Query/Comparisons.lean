import RecordLog.Query.Operator
import RecordLog.Proofs.Json.Ordering

/-!
# Comparisons

The operators that compare a value with the operand itself always have an answer.  They ask for
the equality of queries, for the order of values and for that order from the other side, so what
they answer fits together (`comparisons_coherent`).
-/

namespace RecordLog.Operator

/-- A value matches an operand. -/
def Matches (op : Operator) (value operand : Json) : Prop :=
  op.holds value operand = .ok true

section

variable {v w : Json}

/-- The operator for equality is strict equality. -/
theorem equal_matches_iff : equal.Matches v w ↔ v.strictEq w = true := by
  rw [Matches, holds, Except.ok.injEq]

/-- The operator for less is the order of values. -/
theorem less_matches_iff : less.Matches v w ↔ Json.Before v w := by
  rw [Matches, holds, Except.ok.injEq, Json.precedes_iff]

/-- Less one way is greater the other way. -/
theorem less_holds_eq (hv : Json.WellFormed v) (hw : Json.WellFormed w) :
    less.holds v w = greater.holds w v :=
  congrArg Except.ok (Json.follows_eq hw hv).symm

/-- The operator for greater is the order of values, the other way. -/
theorem greater_matches_iff (hv : Json.WellFormed v) (hw : Json.WellFormed w) :
    greater.Matches v w ↔ Json.Before w v := by
  rw [Matches, ← less_holds_eq hw hv]
  exact less_matches_iff

/-- At most one of the comparisons matches. -/
theorem Matches.unique (hv : Json.WellFormed v) (hw : Json.WellFormed w) {op op' : Operator}
    (hop : op ≠ oneOf) (hop' : op' ≠ oneOf) (h : op.Matches v w) (h' : op'.Matches v w) :
    op = op' := by
  have hequal : equal.Matches v w → ¬ Json.Before v w ∧ ¬ Json.Before w v := by
    rw [equal_matches_iff, Json.strictEq_iff_same]
    rintro ⟨-, -, hsame⟩
    exact (Json.not_before_iff hv hw).mpr (.inl hsame)
  have hless := less_matches_iff (v := v) (w := w)
  have hgreater := greater_matches_iff hv hw
  have hasymm : Json.Before v w → ¬ Json.Before w v := fun h => h.asymm hv hw
  cases op <;> cases op' <;> simp_all

/-- **Comparisons fit together.**  On well-formed values, which are all that documents hold, each
comparison has an answer.  One value is less than another one if that one is greater, which is
the case if it comes before it.  This order is irreflexive and transitive; equality is symmetric
and transitive, and every value but NaN equals itself; at most one comparison matches, and equal
values compare alike.  Neither order matches values that have no order, and apart from these only
values that are the same. -/
theorem comparisons_coherent {a b c a' b' : Json} (ha : Json.WellFormed a)
    (hb : Json.WellFormed b) (hc : Json.WellFormed c) (ha' : Json.WellFormed a')
    (hb' : Json.WellFormed b') :
    (∀ op, op ≠ oneOf → ∃ answer, op.holds a b = .ok answer) ∧
    less.holds a b = greater.holds b a ∧
    (less.Matches a b ↔ a.Before b) ∧
    ¬ less.Matches a a ∧
    (less.Matches a b → less.Matches b c → less.Matches a c) ∧
    (equal.Matches a b → equal.Matches b a) ∧
    (equal.Matches a b → equal.Matches b c → equal.Matches a c) ∧
    (equal.Matches a a ↔ a ≠ .float .nan) ∧
    (∀ op op', op ≠ oneOf → op' ≠ oneOf → op.Matches a b → op'.Matches a b → op = op') ∧
    (equal.Matches a a' → equal.Matches b b' → (less.Matches a b ↔ less.Matches a' b')) ∧
    (¬ less.Matches a b ∧ ¬ greater.Matches a b ↔ a.same b = true ∨ a.Incomparable b) := by
  refine ⟨?answers, less_holds_eq ha hb, less_matches_iff, ?irreflexive, ?transitive, ?symmetric,
    ?equalTransitive, ?reflexive, fun _ _ hop hop' => Matches.unique ha hb hop hop', ?alike,
    ?neither⟩
  case answers =>
    intro op hop
    cases op with
    | oneOf => exact absurd rfl hop
    | _ => exact ⟨_, rfl⟩
  case irreflexive =>
    rw [less_matches_iff]
    exact Json.Before.irrefl ha
  case transitive =>
    simp only [less_matches_iff]
    exact fun hab hbc => hab.trans hbc ha hb hc
  case symmetric =>
    simp only [equal_matches_iff]
    exact Json.strictEq_symm ha hb
  case equalTransitive =>
    simp only [equal_matches_iff]
    exact Json.strictEq_trans ha hb hc
  case reflexive =>
    rw [equal_matches_iff]
    exact Json.strictEq_self_iff ha
  case alike =>
    simp only [equal_matches_iff, less_matches_iff, Json.strictEq_iff_same]
    rintro ⟨-, -, haa⟩ ⟨-, -, hbb⟩
    have haa' : a'.same a = true := Json.same_comm ha ha' ▸ haa
    have hbb' : b'.same b = true := Json.same_comm hb hb' ▸ hbb
    exact ⟨fun h => h.congr ha hb ha' hb' haa hbb, fun h => h.congr ha' hb' ha hb haa' hbb'⟩
  case neither =>
    rw [less_matches_iff, greater_matches_iff ha hb]
    exact Json.not_before_iff ha hb

/-- Arrays whose first items are one number, written in three ways.  Their second items decide,
and null has no order among these. -/
theorem comparisons_coherent_nested :
    let a : Json := .arr [.int 1, .str "a"]
    let b : Json := .arr [.float .one, .str "b"]
    let c : Json := .arr [.bool true, .str "b", .arr []]
    let a' : Json := .arr [.bool true, .str "a"]
    let b' : Json := .arr [.bool true, .str "b"]
    let d : Json := .arr [.int 1, .null]
    (∀ v ∈ [a, b, c, a', b', d], Json.WellFormed v) ∧ less.Matches a c ∧ less.Matches a' b' ∧
      ¬ less.Matches a d ∧ ¬ greater.Matches a d := by
  intro a b c a' b' d
  have hflat : ∀ v w : Json, Json.WellFormed v → Json.WellFormed w →
      Json.WellFormed (.arr [v, w]) := fun _ _ hv hw => ⟨hv, hw, trivial⟩
  have ha : Json.WellFormed a := hflat _ _ trivial trivial
  have hb : Json.WellFormed b := hflat _ _ trivial trivial
  have hc : Json.WellFormed c := ⟨trivial, trivial, trivial, trivial⟩
  have ha' : Json.WellFormed a' := hflat _ _ trivial trivial
  have hb' : Json.WellFormed b' := hflat _ _ trivial trivial
  have hd : Json.WellFormed d := hflat _ _ trivial trivial
  have hab : less.Matches a b :=
    less_matches_iff.mpr (.later (by decide +kernel) (.item (by decide +kernel) (.texts rfl)))
  have hbc : less.Matches b c :=
    less_matches_iff.mpr (.later (by decide +kernel) (.later (by decide +kernel) (.shorter _ _)))
  have haa : equal.Matches a a' := equal_matches_iff.mpr (by decide +kernel)
  have hbb : equal.Matches b b' := equal_matches_iff.mpr (by decide +kernel)
  obtain ⟨-, -, -, -, htransitive, -, -, -, -, halike, -⟩ := comparisons_coherent ha hb hc ha' hb'
  obtain ⟨-, -, -, -, -, -, -, -, -, -, hneither⟩ := comparisons_coherent ha hd hc ha' hb'
  have hincomparable : a.Incomparable d :=
    .later (by decide +kernel) (.item (by decide +kernel) (.kinds (.inr nofun)))
  refine ⟨?_, htransitive hab hbc, (halike haa hbb).mp hab, hneither.mpr (.inr hincomparable)⟩
  simp only [List.forall_mem_cons]
  exact ⟨ha, hb, hc, ha', hb', hd, nofun⟩

end

end RecordLog.Operator
