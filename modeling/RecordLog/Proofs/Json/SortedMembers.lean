import Mathlib.Data.List.Sort
import RecordLog.Json.Writer
import RecordLog.Proofs.Text.Order

/-!
# Sorted members

Putting members in the order of their keys is insertion sort for a total order on keys.  It
keeps the members (`sortMembers_perm`), looks only at their keys (`sortMembers_map`), and gives
one list for all orders of members under different keys (`sortMembers_eq_of_perm`).
-/

namespace RecordLog.Json

variable {α β : Type}

/-- The key of one member is not behind that of the other one. -/
def KeyLe (m n : Text × α) : Prop :=
  Text.points m.1 ≤ Text.points n.1

instance : DecidableRel (KeyLe (α := α)) := fun m n =>
  inferInstanceAs (Decidable (Text.points m.1 ≤ Text.points n.1))

instance : Std.Total (KeyLe (α := α)) := ⟨fun m n => le_total (Text.points m.1) (Text.points n.1)⟩

instance : IsTrans (Text × α) KeyLe := ⟨fun _ _ _ => le_trans⟩

/-- A member is inserted in the order of keys. -/
theorem insertMember_eq_orderedInsert (m : Text × α) (ms : List (Text × α)) :
    insertMember m ms = ms.orderedInsert KeyLe m := by
  induction ms with
  | nil => rfl
  | cons n later ih =>
      have hle : KeyLe m n ↔ ¬ Text.precedes n.1 m.1 = true := by
        rw [Text.precedes_iff, not_lt, KeyLe]
      rw [insertMember, List.orderedInsert_cons, ih]
      by_cases h : Text.precedes n.1 m.1 = true
      · rw [if_pos h, if_neg fun hmn => hle.mp hmn h]
      · rw [if_neg h, if_pos (hle.mpr h)]

/-- Members are sorted by insertion in the order of keys. -/
theorem sortMembers_eq_insertionSort (ms : List (Text × α)) :
    sortMembers ms = ms.insertionSort KeyLe := by
  induction ms with
  | nil => rfl
  | cons m later ih =>
      rw [List.insertionSort_cons, ← insertMember_eq_orderedInsert, ← ih]
      rfl

/-- Sorting rearranges members. -/
theorem sortMembers_perm (ms : List (Text × α)) : (sortMembers ms).Perm ms := by
  rw [sortMembers_eq_insertionSort]
  exact List.perm_insertionSort KeyLe ms

/-- Members in any order, under different keys, are put in one order. -/
theorem sortMembers_eq_of_perm {ms ns : List (Text × α)} (hkeys : (ms.map Prod.fst).Nodup)
    (h : ms.Perm ns) : sortMembers ms = sortMembers ns := by
  have hperm : (sortMembers ms).Perm (sortMembers ns) :=
    (sortMembers_perm ms).trans (h.trans (sortMembers_perm ns).symm)
  have hsorted : ∀ ls : List (Text × α), (sortMembers ls).Pairwise KeyLe := by
    intro ls
    rw [sortMembers_eq_insertionSort]
    exact List.pairwise_insertionSort KeyLe ls
  refine hperm.eq_of_pairwise ?_ (hsorted ms) (hsorted ns)
  intro m n hm hn hmn hnm
  have hmem := (sortMembers_perm ms).mem_iff.mp hm
  have hmem' := h.mem_iff.mpr ((sortMembers_perm ns).mem_iff.mp hn)
  exact List.inj_on_of_nodup_map hkeys hmem hmem' (Text.points_injective (le_antisymm hmn hnm))

/-- Inserting does not look at values. -/
theorem insertMember_map (f : α → β) (m : Text × α) (ms : List (Text × α)) :
    insertMember (m.map id f) (ms.map (Prod.map id f)) =
      (insertMember m ms).map (Prod.map id f) := by
  induction ms with
  | nil => rfl
  | cons n later ih =>
      rw [List.map_cons, insertMember, insertMember, ih, Prod.map_fst, Prod.map_fst, id, id]
      split <;> rfl

/-- Only the keys decide about the order. -/
theorem sortMembers_map (f : α → β) (ms : List (Text × α)) :
    sortMembers (ms.map (Prod.map id f)) = (sortMembers ms).map (Prod.map id f) := by
  induction ms with
  | nil => rfl
  | cons m later ih => exact (congrArg (insertMember _) ih).trans (insertMember_map f m _)

end RecordLog.Json
