import Mathlib.Data.List.Nodup
import RecordLog.Database
import RecordLog.Proofs.Query.Clause

/-!
# Conjunction

Results are intersected by identity, and several records may share one.  So a
record survives a clause that it does not satisfy itself if another record with
its identity does; only the first clause must be satisfied by the record in
person, since its result seeds the accumulator.

`conjunction_select` says exactly which records a conjunction keeps.  If no two
records share an identity, these are the records that satisfy all clauses, and
the order of the clauses does not matter.
-/

namespace RecordLog

/-- Some record with the identity of `r` satisfies the clause. -/
def Clause.Reaches (rs : List Record) (c : Clause) (r : Record) : Prop :=
  ∃ s ∈ rs, Record.identity s = Record.identity r ∧ c.accepts s

instance (rs : List Record) (c : Clause) (r : Record) : Decidable (c.Reaches rs r) :=
  inferInstanceAs (Decidable (∃ s ∈ rs, _))

/-- The records that satisfy the first clause and that every later clause
reaches. -/
def Record.conjunction (rs : List Record) : List Clause → List Record
  | [] => []
  | c :: cs => rs.filter fun r => c.accepts r ∧ ∀ d ∈ cs, d.Reaches rs r

/-- What the result of a clause keeps of an accumulator. -/
theorem intersect_filter_accepts (rs acc : List Record) (c : Clause) :
    Record.intersect (some acc) (rs.filter c.accepts) = acc.filter fun r => c.Reaches rs r := by
  simp only [Record.intersect]
  apply List.filter_congr
  intro r _
  rw [decide_eq_decide]
  simp only [Record.identities, Clause.Reaches, List.mem_map, List.mem_filter]
  constructor
  · rintro ⟨s, ⟨hs, ha⟩, hk⟩
    exact ⟨s, hs, hk, ha⟩
  · rintro ⟨s, hs, hk, ha⟩
    exact ⟨s, ⟨hs, ha⟩, hk⟩

/-- A seeded accumulator keeps the records that every clause reaches. -/
theorem accumulate_all_some (rs acc : List Record) (cs : List Clause) :
    Combination.all.accumulate rs (some acc) cs =
      some (acc.filter fun r => ∀ d ∈ cs, d.Reaches rs r) := by
  induction cs generalizing acc with
  | nil => simp [Combination.accumulate, List.filter_true]
  | cons c cs ih =>
      have hstep : Combination.all.accumulate rs (some acc) (c :: cs) =
          Combination.all.accumulate rs (some (acc.filter fun r => c.Reaches rs r)) cs := by
        rw [← intersect_filter_accepts]
        rfl
      rw [hstep, ih, List.filter_filter]
      congr 1
      apply List.filter_congr
      intro r _
      simp only [List.forall_mem_cons, Bool.decide_and, Bool.and_comm]

/-- The first clause seeds the accumulator with the records that satisfy it. -/
theorem accumulate_all_none (rs : List Record) (c : Clause) (cs : List Clause) :
    Combination.all.accumulate rs none (c :: cs) = some (Record.conjunction rs (c :: cs)) := by
  have hseed : Combination.all.accumulate rs none (c :: cs) =
      Combination.all.accumulate rs (some (rs.filter c.accepts)) cs := rfl
  rw [hseed, accumulate_all_some, List.filter_filter, Record.conjunction]
  congr 1
  apply List.filter_congr
  intro r _
  simp only [Bool.decide_and, Bool.and_comm, Bool.decide_eq_true]

/-- The fold of a conjunction is one filter by what each clause selects. -/
theorem select_all_eq (rs : List Record) (c : Clause) (cs : List Clause) :
    Combination.all.select rs (c :: cs) =
      Clause.outcome rs (c :: cs) (Record.conjunction rs (c :: cs)) := by
  rw [Combination.select_eq, accumulate_all_none]
  rfl

/-- Where identities are distinct, only the record itself can satisfy a clause in
its name. -/
theorem reaches_iff_accepts {rs : List Record} (hrs : (Record.identities rs).Nodup)
    {r : Record} (hr : r ∈ rs) (c : Clause) : c.Reaches rs r ↔ c.accepts r := by
  constructor
  · rintro ⟨s, hs, hk, ha⟩
    have hsr : s = r := List.inj_on_of_nodup_map hrs hs hr hk
    rw [← hsr]
    exact ha
  · intro ha
    exact ⟨r, hr, rfl, ha⟩

/-- If no identity is shared, a conjunction is a plain filter. -/
theorem conjunction_of_nodup {rs : List Record} (hrs : (Record.identities rs).Nodup)
    (c : Clause) (cs : List Clause) :
    Record.conjunction rs (c :: cs) = rs.filter fun r => ∀ d ∈ c :: cs, d.accepts r := by
  apply List.filter_congr
  intro r hr
  simp only [reaches_iff_accepts hrs hr, List.forall_mem_cons]

/-- Where identities are distinct, the order of clauses does not matter. -/
theorem select_all_of_perm {rs : List Record} (hrs : (Record.identities rs).Nodup)
    {c : Clause} {cs ds : List Clause} (hds : ds.Perm (c :: cs)) :
    Combination.all.select rs ds =
      Clause.outcome rs (c :: cs) (rs.filter fun r => ∀ d ∈ c :: cs, d.accepts r) := by
  cases ds with
  | nil => exact absurd hds.symm.eq_nil (List.cons_ne_nil c cs)
  | cons d ds =>
      rw [select_all_eq, conjunction_of_nodup hrs]
      simp only [Clause.outcome, Clause.answerableOver_of_perm hds, hds.mem_iff]

/-- **Conjunction.**  A conjunction of clauses, in either of its two forms, fails
only if one of them cannot be evaluated.  Otherwise it keeps, in the order of the
log and as often as they occur, the records that satisfy the first clause and
share their identity with a record that satisfies the second, with one that
satisfies the third, and so on.  Where identities are distinct, that is the filter
by all clauses, in whatever order the clauses are given. -/
theorem conjunction_select (textFields : List Text) (rs : List Record) (c : Clause)
    (cs : List Clause) :
    let found := rs.filter fun r => c.accepts r ∧
      ∀ d ∈ cs, ∃ s ∈ rs, Record.identity s = Record.identity r ∧ d.accepts s
    (Query.fields (c :: cs)).select textFields rs = Clause.outcome rs (c :: cs) found ∧
      (Query.combined .all (c :: cs)).select textFields rs =
        Clause.outcome rs (c :: cs) found ∧
      ((Record.identities rs).Nodup → ∀ ds, ds.Perm (c :: cs) →
        let filtered := rs.filter fun r => ∀ d ∈ c :: cs, d.accepts r
        (Query.fields ds).select textFields rs = Clause.outcome rs (c :: cs) filtered ∧
          (Query.combined .all ds).select textFields rs =
            Clause.outcome rs (c :: cs) filtered) := by
  refine ⟨select_all_eq rs c cs, select_all_eq rs c cs, ?_⟩
  intro hrs ds hds
  exact ⟨select_all_of_perm hrs hds, select_all_of_perm hrs hds⟩

/-- A record that only shares its identity with one that satisfies the second clause
is found; and two clauses in the opposite order, over distinct identities. -/
theorem conjunction_select_shared_identity :
    let left : Record := [("_id", .str "x"), ("a", .str "1")]
    let right : Record := [("_id", .str "x"), ("b", .str "1")]
    let other : Record := [("_id", .str "y"), ("a", .str "1")]
    let c : Clause := ⟨"a", .equal, .str "1"⟩
    let d : Clause := ⟨"b", .oneOf, .arr [.null, .str "1"]⟩
    (Query.fields [c, ⟨"b", .equal, .str "1"⟩]).select [] [left, right] = .ok [left] ∧
      (Record.identities [right, other]).Nodup ∧ [d, c].Perm [c, d] ∧
      (Query.combined .all [d, c]).select [] [right, other] = .ok [other] := by
  intro left right other c d
  have hdistinct : (Record.identities [right, other]).Nodup := by decide
  have hperm : [d, c].Perm [c, d] := .swap c d []
  exact ⟨(conjunction_select [] [left, right] c [⟨"b", .equal, .str "1"⟩]).1, hdistinct, hperm,
    ((conjunction_select [] [right, other] c [d]).2.2 hdistinct [d, c] hperm).2⟩

end RecordLog
