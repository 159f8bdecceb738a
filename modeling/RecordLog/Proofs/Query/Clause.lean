import RecordLog.Query.Combine

/-!
# Clauses as predicates

A clause is evaluated record by record, and the evaluation can fail: a membership
test needs an operand that holds candidates.  Whether it fails depends on the
clause alone, never on the record.  So a list of clauses is *answerable* over
records as a whole, or every way of combining it fails in the same manner:

* `Clause.select_of_answerable`: an answerable clause selects by a plain filter;
* `Combination.select_eq`: combining answerable clauses is a fold of these
  filters, and combining other clauses fails.
-/

namespace RecordLog

namespace Clause

/-- Whether a record satisfies a clause.  A comparison that cannot be made is not
satisfied. -/
def accepts (c : Clause) (r : Record) : Bool :=
  match c.op.holds (Members.getOrNull r c.field) c.operand with
  | .ok b => b
  | .error _ => false

/-- The operand of a membership test holds candidates.  Other operators take any
operand. -/
def Answerable (c : Clause) : Prop :=
  c.op = .oneOf → (Operator.candidates? c.operand).isSome

instance (c : Clause) : Decidable c.Answerable :=
  inferInstanceAs (Decidable (_ → _))

/-- Clauses that can be evaluated on all of the records.  Without records nothing
is evaluated. -/
def AnswerableOver (rs : List Record) (cs : List Clause) : Prop :=
  rs = [] ∨ ∀ c ∈ cs, c.Answerable

instance (rs : List Record) (cs : List Clause) : Decidable (AnswerableOver rs cs) :=
  decidable_of_iff (rs.isEmpty = true ∨ ∀ c ∈ cs, c.Answerable) (by
    simp [AnswerableOver])

/-- The outcome of clauses that find the given records if they can be evaluated. -/
def outcome (rs : List Record) (cs : List Clause) (found : List Record) :
    Outcome (List Record) :=
  if AnswerableOver rs cs then .ok found else .error .unsuitable

/-- Whether clauses can be evaluated does not depend on their order. -/
theorem answerableOver_of_perm {rs : List Record} {cs ds : List Clause} (h : ds.Perm cs) :
    AnswerableOver rs ds ↔ AnswerableOver rs cs := by
  simp only [AnswerableOver, h.mem_iff]

/-! ### One clause -/

/-- An answerable clause has an answer for every record. -/
theorem holds_of_answerable {c : Clause} (h : c.Answerable) (r : Record) :
    c.op.holds (Members.getOrNull r c.field) c.operand = .ok (c.accepts r) := by
  obtain ⟨field, op, operand⟩ := c
  cases op with
  | equal => rfl
  | greater => rfl
  | less => rfl
  | oneOf =>
      obtain ⟨candidates, hc⟩ := Option.isSome_iff_exists.mp (h rfl)
      simp only at hc
      simp only [accepts, Operator.holds, hc]

/-- A clause that is not answerable fails on every record. -/
theorem holds_of_not_answerable {c : Clause} (h : ¬ c.Answerable) (v : Json) :
    c.op.holds v c.operand = .error .unsuitable := by
  simp only [Answerable, Classical.not_imp] at h
  obtain ⟨hop, hnone⟩ := h
  rw [Option.not_isSome_iff_eq_none] at hnone
  simp only [hop, Operator.holds, hnone]

/-- A clause that can be evaluated selects the records that satisfy it. -/
theorem select_of_answerable {c : Clause} (h : c.Answerable) (rs : List Record) :
    c.select rs = .ok (rs.filter c.accepts) := by
  induction rs with
  | nil => rfl
  | cons r rs ih =>
      rw [select, holds_of_answerable h r]
      cases ha : c.accepts r with
      | true => simp [ih, ha, Except.map]
      | false => simp [ih, ha]

/-- A clause that cannot be evaluated fails as soon as there is a record. -/
theorem select_of_not_answerable {c : Clause} (h : ¬ c.Answerable) {rs : List Record}
    (hrs : rs ≠ []) : c.select rs = .error .unsuitable := by
  cases rs with
  | nil => exact absurd rfl hrs
  | cons r rs => rw [select, holds_of_not_answerable h]

end Clause

/-! ### Combined clauses -/

namespace Combination

/-- Combines the filters of clauses into an accumulator. -/
def accumulate (how : Combination) (rs : List Record) (acc : Option (List Record))
    (cs : List Clause) : Option (List Record) :=
  cs.foldl (fun acc c => some (how.apply acc (rs.filter c.accepts))) acc

/-- If the clauses can be evaluated, the fold is the plain one. -/
theorem fold_of_answerable (how : Combination) {rs : List Record} {cs : List Clause}
    (h : Clause.AnswerableOver rs cs) (acc : Option (List Record)) :
    how.fold rs acc cs = .ok (how.accumulate rs acc cs) := by
  induction cs generalizing acc with
  | nil => rfl
  | cons c cs ih =>
      have hselect : c.select rs = .ok (rs.filter c.accepts) := by
        rcases h with rfl | h
        · rfl
        · exact Clause.select_of_answerable (h c List.mem_cons_self) rs
      have hrest : Clause.AnswerableOver rs cs :=
        h.imp_right fun h d hd => h d (List.mem_cons_of_mem c hd)
      rw [fold, hselect]
      exact ih hrest _

/-- If some clause cannot be evaluated over the records, the fold fails. -/
theorem fold_of_not_answerable (how : Combination) {rs : List Record} {cs : List Clause}
    (h : ¬ Clause.AnswerableOver rs cs) (acc : Option (List Record)) :
    how.fold rs acc cs = .error .unsuitable := by
  simp only [Clause.AnswerableOver, not_or] at h
  obtain ⟨hrs, hcs⟩ := h
  induction cs generalizing acc with
  | nil => exact absurd (fun c hc => absurd hc List.not_mem_nil) hcs
  | cons c cs ih =>
      rw [fold]
      by_cases hc : c.Answerable
      · rw [Clause.select_of_answerable hc rs]
        apply ih
        intro hall
        exact hcs (List.forall_mem_cons.mpr ⟨hc, hall⟩)
      · rw [Clause.select_of_not_answerable hc hrs]

/-- **Combining clauses** is a fold of plain filters if the clauses are answerable
over the records, and fails otherwise. -/
theorem select_eq (how : Combination) (rs : List Record) (cs : List Clause) :
    how.select rs cs = Clause.outcome rs cs ((how.accumulate rs none cs).getD []) := by
  rw [select, Clause.outcome]
  split
  · next h => rw [how.fold_of_answerable h]; rfl
  · next h => rw [how.fold_of_not_answerable h]; rfl

end Combination

end RecordLog
