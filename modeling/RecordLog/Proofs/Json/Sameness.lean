import RecordLog.Json.Compare
import RecordLog.Proofs.Json.Members
import RecordLog.Proofs.Json.Paths

/-!
# Equality whatever the order of members

`Json.same` compares objects by their keys.  In a well-formed value every object is the same
as itself (`same_refl`), and two objects are the same if they match: if at every path they have
equal values or both an object (`Matches.same_obj`).
-/

namespace RecordLog.Json

/-- Numbers and booleans are the same if their values are. -/
theorem same_of_quantity {v w : Json} {p q : Quantity} (hv : v.quantity? = some p)
    (hw : w.quantity? = some q) : v.same w = decide (p = q) := by
  cases v <;> cases w <;> simp_all [same, sameLeaf, quantity?]

/-- Values that are the same have the same quantity, or both have none. -/
theorem quantity?_eq_of_same {v w : Json} (h : v.same w = true) : v.quantity? = w.quantity? := by
  cases v <;> cases w <;> simp_all [same, sameLeaf, quantity?]

/-- Numbers and booleans are ordered by their values. -/
theorem precedes?_of_quantity {v w : Json} {p q : Quantity} (hv : v.quantity? = some p)
    (hw : w.quantity? = some q) : v.precedes? w = some (p.less q) := by
  cases v <;> cases w <;> simp_all [precedes?, leafPrecedes?, quantity?]

/-- Members are the same as others if each is among them with the same value. -/
theorem sameMembers_iff {ms ns : Members} :
    sameMembers ms ns = true ↔
      ∀ kv ∈ ms, ∃ w, Members.get? ns kv.1 = some w ∧ kv.2.same w = true := by
  induction ms with
  | nil => exact iff_of_true rfl (List.forall_mem_nil _)
  | cons kv ms ih =>
      obtain ⟨k, v⟩ := kv
      rw [sameMembers, Bool.and_eq_true, ih, List.forall_mem_cons]
      refine and_congr_left fun _ => ?_
      cases hw : Members.get? ns k with
      | none => simp
      | some w => simp

mutual

/-- A well-formed value is the same as itself. -/
theorem same_refl : ∀ {v : Json}, WellFormed v → v.same v = true
  | null, _ => rfl
  | bool _, _ => by simp [same, sameLeaf, quantity?]
  | int _, _ => by simp [same, sameLeaf, quantity?]
  | float _, _ => by simp [same, sameLeaf, quantity?]
  | str _, _ => by simp [same, sameLeaf]
  | arr _, h => sameItems_refl h
  | obj members, h => by
      have hmembers := same_members_refl h.2
      rw [same, Bool.and_eq_true, sameMembers_iff]
      refine ⟨beq_self_eq_true _, ?_⟩
      intro kv hkv
      exact ⟨kv.2, Members.get?_of_mem h.1 hkv, hmembers kv hkv⟩

theorem sameItems_refl : ∀ {items : List Json}, WellFormedItems items →
    sameItems items items = true
  | [], _ => rfl
  | _ :: _, h => by
      rw [sameItems, same_refl h.1, sameItems_refl h.2]
      rfl

theorem same_members_refl : ∀ {members : Members}, WellFormedMembers members →
    ∀ kv ∈ members, kv.2.same kv.2 = true
  | [], _ => nofun
  | _ :: _, h => List.forall_mem_cons.mpr ⟨same_refl h.1, same_members_refl h.2⟩

end

/-! ### Matching values -/

/-- At every path two values have equal values, or both an object. -/
def Matches (v w : Json) : Prop :=
  ∀ path, v.at? path = w.at? path ∨
    ∃ ms ns, v.at? path = some (.obj ms) ∧ w.at? path = some (.obj ns)

namespace Matches

variable {v w : Json} {ms ns : Members}

theorem symm (h : Matches v w) : Matches w v := by
  intro path
  rcases h path with heq | ⟨ms, ns, hms, hns⟩
  · exact Or.inl heq.symm
  · exact Or.inr ⟨ns, ms, hns, hms⟩

/-- What stands under a key of an object matches what stands there in a matching one. -/
theorem exists_get? (h : Matches (.obj ms) (.obj ns)) {key : Text} {u : Json}
    (hu : Members.get? ms key = some u) :
    ∃ u', Members.get? ns key = some u' ∧ Matches u u' := by
  have hfound : ∃ u', Members.get? ns key = some u' := by
    cases hns : Members.get? ns key with
    | some u' => exact ⟨u', rfl⟩
    | none =>
        have hsingle := h [key]
        rw [at?_obj_singleton, at?_obj_singleton, hu, hns] at hsingle
        rcases hsingle with heq | ⟨_, _, _, hn⟩
        · cases heq
        · cases hn
  obtain ⟨u', hu'⟩ := hfound
  refine ⟨u', hu', ?_⟩
  intro path
  have hpath := h (key :: path)
  rwa [at?_obj_cons, at?_obj_cons, hu, hu', Option.bind_some, Option.bind_some] at hpath

/-- Matching objects have the same keys. -/
theorem mem_keys_iff (h : Matches (.obj ms) (.obj ns)) (key : Text) :
    key ∈ Members.keys ms ↔ key ∈ Members.keys ns := by
  rw [Members.mem_keys_iff, Members.mem_keys_iff]
  constructor
  · rintro ⟨u, hu⟩
    obtain ⟨u', hu', _⟩ := h.exists_get? hu
    exact ⟨u', hu'⟩
  · rintro ⟨u, hu⟩
    obtain ⟨u', hu', _⟩ := h.symm.exists_get? hu
    exact ⟨u', hu'⟩

/-- Well-formed objects that match are the same. -/
theorem same_obj {ms ns : Members} (hms : WellFormed (.obj ms)) (hns : WellFormed (.obj ns))
    (h : Matches (.obj ms) (.obj ns)) : (obj ms).same (.obj ns) = true := by
  have hlength : ms.length = ns.length := by
    have hperm := (List.perm_ext_iff_of_nodup hms.1 hns.1).mpr h.mem_keys_iff
    simpa only [Members.keys, List.length_map] using hperm.length_eq
  rw [Json.same, Bool.and_eq_true, beq_iff_eq, sameMembers_iff]
  refine ⟨hlength, ?_⟩
  rintro ⟨key, v⟩ hkv
  have hv : Members.get? ms key = some v := Members.get?_of_mem hms.1 hkv
  obtain ⟨w, hw, hmatches⟩ := h.exists_get? hv
  refine ⟨w, hw, ?_⟩
  rcases hmatches [] with heq | ⟨ms', ns', hms', hns'⟩
  · obtain rfl := Option.some.inj heq
    exact same_refl (hms.get? hv)
  · obtain rfl := Option.some.inj hms'
    obtain rfl := Option.some.inj hns'
    exact same_obj (hms.get? hv) (hns.get? hw) hmatches
termination_by sizeOf ms
decreasing_by
  have hmember := List.sizeOf_lt_of_mem hkv
  rw [Prod.mk.sizeOf_spec, obj.sizeOf_spec] at hmember
  omega

end Matches

end RecordLog.Json
