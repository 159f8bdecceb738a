import Mathlib.Data.List.Nodup
import Mathlib.Order.Bounds.Defs
import RecordLog.Proofs.Record.Appending
import RecordLog.Query.Combine

/-!
# Logs without repeated identities

The check goes through the records with the identities that it has met, and stops at the
first record whose identity is among them.

* `firstRepeated?_eq_none_iff` and `firstRepeated?_eq_some` say what the loop finds, from
  any identities met before;
* `checkDistinct_eq_ok_iff` and `exists_checkDistinct_eq_error`: records pass the check just
  if their identities are distinct, and are refused with the least position at which an
  identity occurs again;
* `Log.load_strict_eq` says that this check is all that strictness adds to a load.
-/

namespace RecordLog

namespace Record

/-- The record at a position has the identity of an earlier one. -/
def RepeatsAt (rs : List Record) (position : Nat) : Prop :=
  ∃ r, rs[position]? = some r ∧ identity r ∈ identities (rs.take position)

variable {rs : List Record}

/-- Where the identities are distinct, no position repeats one. -/
theorem not_repeatsAt_of_nodup (hrs : (identities rs).Nodup) (position : Nat) :
    ¬ RepeatsAt rs position := by
  rintro ⟨r, hr, hmem⟩
  have htake : rs.take (position + 1) = rs.take position ++ [r] := by
    rw [List.take_add_one, hr, Option.toList_some]
  have hnodup : (identities (rs.take (position + 1))).Nodup :=
    hrs.sublist ((List.take_sublist _ rs).map identity)
  rw [htake, identities, List.map_append, List.nodup_append] at hnodup
  exact hnodup.2.2 _ hmem _ (List.mem_map_of_mem List.mem_cons_self) rfl

/-! ### The loop -/

/-- The loop finds nothing if the identities are distinct, and none was met before. -/
theorem firstRepeated?_eq_none_iff {seen : List Identity} {position : Nat} :
    firstRepeated? seen position rs = none ↔
      (identities rs).Nodup ∧ ∀ k ∈ identities rs, k ∉ seen := by
  induction rs generalizing seen position with
  | nil => exact iff_of_true rfl ⟨List.nodup_nil, List.forall_mem_nil _⟩
  | cons r rs ih =>
      rw [firstRepeated?, identities, List.map_cons, List.nodup_cons, List.forall_mem_cons]
      split
      · next hseen => exact iff_of_false nofun fun h => h.2.1 hseen
      · next hnew =>
          rw [ih]
          constructor
          · rintro ⟨hnodup, hapart⟩
            have hr : identity r ∉ identities rs := fun hmem =>
              hapart _ hmem List.mem_cons_self
            exact ⟨⟨hr, hnodup⟩, hnew, fun k hk hseen =>
              hapart k hk (List.mem_cons_of_mem _ hseen)⟩
          · rintro ⟨⟨hr, hnodup⟩, -, hapart⟩
            refine ⟨hnodup, fun k hk hseen => ?_⟩
            rcases List.mem_cons.mp hseen with rfl | hseen
            · exact hr hk
            · exact hapart k hk hseen

/-- What the loop finds has an identity that was met, and the records before it have new and
distinct ones. -/
theorem firstRepeated?_eq_some {seen : List Identity} {start position : Nat} {r : Record}
    (h : firstRepeated? seen start rs = some (r, position)) :
    ∃ before after, rs = before ++ r :: after ∧ position = start + before.length ∧
      (identity r ∈ seen ∨ identity r ∈ identities before) ∧
      (identities before).Nodup ∧ ∀ k ∈ identities before, k ∉ seen := by
  induction rs generalizing seen start with
  | nil => cases h
  | cons s rs ih =>
      rw [firstRepeated?] at h
      split at h
      · next hseen =>
          obtain ⟨rfl, rfl⟩ := Prod.mk.inj (Option.some.inj h)
          exact ⟨[], rs, rfl, rfl, .inl hseen, List.nodup_nil, List.forall_mem_nil _⟩
      · next hnew =>
          obtain ⟨before, after, rfl, rfl, hmet, hnodup, hapart⟩ := ih h
          refine ⟨s :: before, after, rfl, ?_, ?_, ?_, ?_⟩
          · rw [List.length_cons]
            omega
          · rcases hmet with hmet | hmet
            · rcases List.mem_cons.mp hmet with hs | hseen
              · exact .inr (hs ▸ List.mem_cons_self)
              · exact .inl hseen
            · exact .inr (List.mem_cons_of_mem _ hmet)
          · exact List.nodup_cons.mpr ⟨fun hmem => hapart _ hmem List.mem_cons_self, hnodup⟩
          · exact List.forall_mem_cons.mpr ⟨hnew, fun k hk hseen =>
              hapart k hk (List.mem_cons_of_mem _ hseen)⟩

/-! ### The check -/

/-- The check is passed exactly if no identity is shared. -/
theorem checkDistinct_eq_ok_iff : checkDistinct rs = .ok () ↔ (identities rs).Nodup := by
  have hnone : firstRepeated? [] 0 rs = none ↔ (identities rs).Nodup := by
    rw [firstRepeated?_eq_none_iff]
    exact and_iff_left fun _ _ => List.not_mem_nil
  rw [← hnone, checkDistinct]
  cases firstRepeated? [] 0 rs with
  | none => exact iff_of_true rfl rfl
  | some repeated => exact iff_of_false nofun nofun

/-- Records that do not pass are refused with the first one that repeats an identity. -/
theorem exists_checkDistinct_eq_error (hrs : ¬ (identities rs).Nodup) :
    ∃ r position, rs[position]? = some r ∧ IsLeast {p | RepeatsAt rs p} position ∧
      checkDistinct rs = .error (.duplicateIdentity (id r) position) := by
  cases hfirst : firstRepeated? [] 0 rs with
  | none => exact absurd (firstRepeated?_eq_none_iff.mp hfirst).1 hrs
  | some repeated =>
      obtain ⟨r, position⟩ := repeated
      obtain ⟨before, after, hsplit, hposition, hmet, hnodup, -⟩ :=
        firstRepeated?_eq_some hfirst
      obtain rfl : position = before.length := by omega
      have hget : rs[before.length]? = some r := by
        rw [hsplit, List.getElem?_append_right (Nat.le_refl _), Nat.sub_self]
        rfl
      have htake : ∀ p ≤ before.length, rs.take p = before.take p := fun p hp => by
        rw [hsplit, List.take_append_of_le_length hp]
      refine ⟨r, before.length, hget, ⟨⟨r, hget, ?_⟩, ?_⟩, ?_⟩
      · rw [htake _ (Nat.le_refl _), List.take_length]
        exact hmet.resolve_left List.not_mem_nil
      · rintro p ⟨s, hs, hmem⟩
        -- an earlier repetition would be one among the records before, which have none
        by_contra hlt
        have hp : p < before.length := Nat.lt_of_not_le hlt
        refine not_repeatsAt_of_nodup hnodup p ⟨s, ?_, ?_⟩
        · rw [← hs, hsplit, List.getElem?_append_left hp]
        · rwa [← htake p (Nat.le_of_lt hp)]
      · rw [checkDistinct, hfirst]

end Record

/-! ### Strict loads -/

/-- A log that can be loaded is loaded strictly if its records pass the check. -/
theorem Log.load_strict_eq {path : Path} {content : Octets} {records : List Record}
    (h : load path false content = .ok records) :
    load path true content =
      match Record.checkDistinct records with
      | .ok () => .ok records
      | .error e => .error (.query e) := by
  rw [load, load_eq_ok_iff.mp h]
  rfl

end RecordLog
