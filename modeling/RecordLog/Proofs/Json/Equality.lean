import Mathlib.Data.List.Perm.Subperm
import RecordLog.Proofs.Json.Positions
import RecordLog.Proofs.Json.Sameness
import RecordLog.Proofs.Number.Quantities

/-!
# Equality, position by position

Inside arrays and objects equality counts a boolean as the number 0 or 1.  `SameLeaf` says this
of leaves, and `same_iff` that values are the same if they correspond in leaves that are the
same.  So on well-formed values `Json.same` is an equivalence.

The equality of queries looks at booleans once, on the outside, and leaves the rest to that
equality: `strictEq_iff` says what it means at every position.
-/

namespace RecordLog.Json

/-- Two leaves are the same: both are null, or they are one text, or they are numbers or booleans
of one value, where false counts as 0 and true as 1. -/
inductive SameLeaf : Json → Json → Prop
  | null : SameLeaf null null
  | text (t : Text) : SameLeaf (str t) (str t)
  | number {v w : Json} {q : Quantity} (hv : v.quantity? = some q) (hw : w.quantity? = some q) :
      SameLeaf v w

section

variable {u v w : Json}

theorem SameLeaf.refl (h : v.isLeaf) : SameLeaf v v := by
  cases v with
  | null => exact .null
  | str t => exact .text t
  | arr | obj => cases h
  | _ => exact .number rfl rfl

theorem SameLeaf.symm (h : SameLeaf v w) : SameLeaf w v := by
  cases h with
  | null => exact .null
  | text t => exact .text t
  | number hv hw => exact .number hw hv

theorem SameLeaf.trans (huv : SameLeaf u v) (hvw : SameLeaf v w) : SameLeaf u w := by
  cases huv with
  | null => exact hvw
  | text t => exact hvw
  | number hu hv =>
      cases hvw with
      | null | text => cases hv
      | number hv' hw =>
          obtain rfl := Option.some.inj (hv.symm.trans hv')
          exact .number hu hw

/-- The test decides whether two values are the same leaf. -/
theorem sameLeaf_iff : sameLeaf v w = true ↔ SameLeaf v w := by
  constructor
  · intro h
    unfold sameLeaf at h
    split at h
    · exact .null
    · obtain rfl := of_decide_eq_true h
      exact .text _
    · split at h
      · next hv hw =>
          obtain rfl := of_decide_eq_true h
          exact .number hv hw
      · cases h
  · intro h
    cases h with
    | null => rfl
    | text t => exact decide_eq_true rfl
    | number hv hw =>
        unfold sameLeaf
        split
        · rfl
        · cases hv
        · rw [hv, hw]
          exact decide_eq_true rfl

/-- Only leaves are the same as leaves. -/
theorem SameLeaf.isLeaf (h : SameLeaf v w) : v.isLeaf ∧ w.isLeaf := by
  have hquantity : ∀ {u : Json} {q : Quantity}, u.quantity? = some q → u.isLeaf := by
    intro u q hu
    cases u with
    | arr | obj => cases hu
    | _ => rfl
  cases h with
  | null | text => exact ⟨rfl, rfl⟩
  | number hv hw => exact ⟨hquantity hv, hquantity hw⟩

/-! ### Equality inside containers -/

/-- A leaf is the same as another value exactly if the two correspond. -/
theorem same_iff_of_isLeaf (h : v.isLeaf ∨ w.isLeaf) :
    v.same w = true ↔ Corresponds SameLeaf v w := by
  have hsame : v.same w = sameLeaf v w := by
    rcases h with h | h
    · cases v with
      | arr | obj => cases h
      | _ => rfl
    · cases w with
      | arr | obj => cases h
      | _ => cases v <;> rfl
  rw [hsame, sameLeaf_iff]
  constructor
  · intro hleaf
    exact (corresponds_of_isLeaf hleaf.isLeaf.1).mpr ⟨hleaf.isLeaf.2, hleaf⟩
  · intro hcorresponds
    have hv : v.isLeaf := h.elim id fun hw => hcorresponds.isLeaf_eq.trans hw
    exact ((corresponds_of_isLeaf hv).mp hcorresponds).2

end

/-- Arrays do not correspond to objects. -/
theorem not_corresponds_arr_obj {R : Json → Json → Prop} {vs : List Json} {ms : Members} :
    ¬ Corresponds R (arr vs) (obj ms) ∧ ¬ Corresponds R (obj ms) (arr vs) := by
  constructor
  · intro h
    cases (corresponds_iff.mp h).1 with
    | leaves hv => cases hv
  · intro h
    cases (corresponds_iff.mp h).1 with
    | leaves hv => cases hv

/-- Two objects have related values under every key if they are of one size and one has all
members of the other one, with values that are related to its own. -/
theorem rel_get?_iff {P : Json → Json → Prop} {ms ns : Members} (hms : (Members.keys ms).Nodup)
    (hns : (Members.keys ns).Nodup) :
    (∀ key, Option.Rel P (Members.get? ms key) (Members.get? ns key)) ↔
      ms.length = ns.length ∧ ∀ kv ∈ ms, ∃ w, Members.get? ns kv.1 = some w ∧ P kv.2 w := by
  have hlength : ∀ m : Members, (Members.keys m).length = m.length := fun m => List.length_map _
  constructor
  · intro h
    have hkeys : ∀ key, key ∈ Members.keys ms ↔ key ∈ Members.keys ns := by
      intro key
      rw [Members.mem_keys_iff, Members.mem_keys_iff]
      have hkey := h key
      generalize Members.get? ms key = found, Members.get? ns key = found' at hkey
      cases hkey with
      | some _ => exact iff_of_true ⟨_, rfl⟩ ⟨_, rfl⟩
      | none => exact Iff.rfl
    refine ⟨?_, ?_⟩
    · have hperm := (List.perm_ext_iff_of_nodup hms hns).mpr hkeys
      rw [← hlength ms, ← hlength ns, hperm.length_eq]
    · rintro ⟨key, v⟩ hkv
      have hkey := h key
      rw [Members.get?_of_mem hms hkv] at hkey
      generalize Members.get? ns key = found at hkey
      cases hkey with
      | some hvw => exact ⟨_, rfl, hvw⟩
  · rintro ⟨hsize, hmembers⟩ key
    have hsubset : Members.keys ms ⊆ Members.keys ns := by
      intro k hk
      obtain ⟨kv, hkv, rfl⟩ := List.mem_map.mp hk
      obtain ⟨w, hw, _⟩ := hmembers kv hkv
      exact Members.mem_keys_iff.mpr ⟨w, hw⟩
    have hperm : (Members.keys ms).Perm (Members.keys ns) := by
      refine (List.subperm_of_subset hms hsubset).perm_of_length_le ?_
      rw [hlength, hlength, hsize]
    cases hv : Members.get? ms key with
    | some v =>
        obtain ⟨w, hw, hvw⟩ := hmembers (key, v) (Members.mem_of_get? hv)
        rw [hw]
        exact .some hvw
    | none =>
        have hnone : key ∉ Members.keys ns := by
          rw [← hperm.mem_iff, Members.mem_keys_iff, hv]
          rintro ⟨_, ⟨⟩⟩
        rw [Members.get?_eq_none_of_notMem hnone]
        exact .none

mutual

/-- **Well-formed values are the same if they correspond in leaves that are the same.** -/
theorem same_iff : ∀ {v w : Json}, WellFormed v → WellFormed w →
    (v.same w = true ↔ Corresponds SameLeaf v w)
  | arr vs, w, hv, hw => by
      cases w with
      | arr ws => exact (sameItems_iff hv hw).trans corresponds_arr.symm
      | obj ns => exact iff_of_false nofun not_corresponds_arr_obj.1
      | _ => exact same_iff_of_isLeaf (.inr rfl)
  | obj ms, w, hv, hw => by
      cases w with
      | arr ws => exact iff_of_false nofun not_corresponds_arr_obj.2
      | obj ns =>
          rw [corresponds_obj, rel_get?_iff hv.1 hw.1, same, Bool.and_eq_true, beq_iff_eq,
            sameMembers_iff]
          refine and_congr_right fun _ => forall₂_congr fun kv hkv => exists_congr fun u => ?_
          refine and_congr_right fun hu => ?_
          exact same_member_iff hv.2 kv hkv (hw.get? hu)
      | _ => exact same_iff_of_isLeaf (.inr rfl)
  | null, _, _, _ => same_iff_of_isLeaf (.inl rfl)
  | bool _, _, _, _ => same_iff_of_isLeaf (.inl rfl)
  | int _, _, _, _ => same_iff_of_isLeaf (.inl rfl)
  | float _, _, _, _ => same_iff_of_isLeaf (.inl rfl)
  | str _, _, _, _ => same_iff_of_isLeaf (.inl rfl)

/-- Items are the same exactly if they correspond one by one. -/
theorem sameItems_iff : ∀ {vs ws : List Json}, WellFormedItems vs → WellFormedItems ws →
    (sameItems vs ws = true ↔ List.Forall₂ (Corresponds SameLeaf) vs ws)
  | [], [], _, _ => iff_of_true rfl .nil
  | [], _ :: _, _, _ => iff_of_false nofun nofun
  | _ :: _, [], _, _ => iff_of_false nofun nofun
  | _ :: _, _ :: _, hv, hw => by
      rw [sameItems, Bool.and_eq_true, List.forall₂_cons, same_iff hv.1 hw.1,
        sameItems_iff hv.2 hw.2]

/-- The value of a member is the same as another value exactly if the two correspond. -/
theorem same_member_iff : ∀ {ms : Members}, WellFormedMembers ms → ∀ kv ∈ ms, ∀ {w : Json},
    WellFormed w → (kv.2.same w = true ↔ Corresponds SameLeaf kv.2 w)
  | [], _, _, h, _, _ => absurd h List.not_mem_nil
  | (_, _) :: _, hms, kv, h, _, hw => by
      rcases List.mem_cons.mp h with rfl | h
      · exact same_iff hms.1 hw
      · exact same_member_iff hms.2 kv h hw

end

section

variable {u v w : Json}

theorem same_comm (hv : WellFormed v) (hw : WellFormed w) : v.same w = w.same v := by
  rw [Bool.eq_iff_iff, same_iff hv hw, same_iff hw hv]
  exact ⟨.symm .symm, .symm .symm⟩

theorem same_trans (hu : WellFormed u) (hv : WellFormed v) (hw : WellFormed w)
    (huv : u.same v = true) (hvw : v.same w = true) : u.same w = true := by
  rw [same_iff hu hv] at huv
  rw [same_iff hv hw] at hvw
  rw [same_iff hu hw]
  exact huv.trans .trans hvw

/-- Values that are the same are the same as the same values. -/
theorem same_congr {v' w' : Json} (hv : WellFormed v) (hw : WellFormed w) (hv' : WellFormed v')
    (hw' : WellFormed w') (hvv : v.same v' = true) (hww : w.same w' = true) :
    v.same w = v'.same w' := by
  have hvv' : v'.same v = true := same_comm hv hv' ▸ hvv
  have hww' : w'.same w = true := same_comm hw hw' ▸ hww
  rw [Bool.eq_iff_iff]
  constructor
  · intro h
    exact same_trans hv' hw hw' (same_trans hv' hv hw hvv' h) hww
  · intro h
    exact same_trans hv hw' hw (same_trans hv hv' hw' hvv h) hww'

/-! ### The equality of queries -/

/-- A boolean faces the same boolean, and nothing else does. -/
def SameBoolean (v w : Json) : Prop :=
  ∀ b, v = bool b ↔ w = bool b

/-- On the outside, the equality of queries tells booleans from numbers, and NaN from itself. -/
theorem strictEq_iff_same :
    v.strictEq w = true ↔ v ≠ float .nan ∧ SameBoolean v w ∧ v.same w = true := by
  cases v <;> cases w <;>
    simp [SameBoolean, strictEq, same, sameLeaf, quantity?, Quantity.equal_iff,
      Quantity.ofInt_injective.eq_iff, Quantity.ofInt_ne_nan, Quantity.ofDouble_eq_nan_iff]
  -- two booleans are left
  rintro rfl
  rfl

/-- Only NaN counts as NaN. -/
theorem eq_nan_of_quantity? (h : v.quantity? = some .nan) : v = float .nan := by
  cases v with
  | float x => rw [Quantity.ofDouble_eq_nan_iff.mp (Option.some.inj h)]
  | bool | int => exact absurd (Option.some.inj h) (Quantity.ofInt_ne_nan _)
  | _ => cases h

theorem strictEq_symm (hv : WellFormed v) (hw : WellFormed w) (h : v.strictEq w = true) :
    w.strictEq v = true := by
  obtain ⟨hnan, hboolean, hsame⟩ := strictEq_iff_same.mp h
  refine strictEq_iff_same.mpr ⟨?_, fun b => (hboolean b).symm, same_comm hv hw ▸ hsame⟩
  rintro rfl
  exact hnan (eq_nan_of_quantity? (quantity?_eq_of_same hsame))

theorem strictEq_trans (hu : WellFormed u) (hv : WellFormed v) (hw : WellFormed w)
    (huv : u.strictEq v = true) (hvw : v.strictEq w = true) : u.strictEq w = true := by
  obtain ⟨hnan, hboolean, hsame⟩ := strictEq_iff_same.mp huv
  obtain ⟨-, hboolean', hsame'⟩ := strictEq_iff_same.mp hvw
  exact strictEq_iff_same.mpr
    ⟨hnan, fun b => (hboolean b).trans (hboolean' b), same_trans hu hv hw hsame hsame'⟩

/-- Every value but NaN equals itself. -/
theorem strictEq_self_iff (hv : WellFormed v) : v.strictEq v = true ↔ v ≠ float .nan := by
  rw [strictEq_iff_same, and_iff_left ⟨fun b => Iff.rfl, same_refl hv⟩]

/-- **The equality of queries, position by position.**  Two values are equal if they have one
shape and the same leaves at every position, where a boolean inside an array or an object counts
as a number; on the outside it does not, and NaN equals nothing.  So a boolean faces the same
boolean, or, inside an array or an object, the number that it counts as. -/
theorem strictEq_iff (hv : WellFormed v) (hw : WellFormed w) :
    (v.strictEq w = true ↔
      v ≠ float .nan ∧ SameBoolean v w ∧ Corresponds SameLeaf v w) ∧
    (v.strictEq w = true → ∀ position b, v.part? position = some (bool b) →
      w.part? position = some (bool b) ∨
        position ≠ [] ∧ ∃ u, w.part? position = some u ∧
          u.quantity? = some (.ofInt (if b then 1 else 0))) := by
  have hiff : v.strictEq w = true ↔
      v ≠ float .nan ∧ SameBoolean v w ∧ Corresponds SameLeaf v w := by
    rw [strictEq_iff_same, same_iff hv hw]
  refine ⟨hiff, fun heq position b hb => ?_⟩
  obtain ⟨_, houtside, hcorresponds⟩ := hiff.mp heq
  by_cases hposition : position = []
  · left
    subst hposition
    obtain rfl := Option.some.inj hb
    rw [part?, (houtside b).mp rfl]
  · right
    have hat := hcorresponds position
    rw [hb] at hat
    generalize w.part? position = found at hat ⊢
    cases hat with
    | some hfaces =>
        cases hfaces with
        | leaves _ _ hsame =>
            cases hsame with
            | number hleft hright =>
                cases hleft
                exact ⟨hposition, _, rfl, hright⟩

/-- Members in another order, and a boolean in an array that faces the number 1. -/
theorem strictEq_iff_reordered :
    let v : Json := .obj [("a", .arr [.bool true]), ("b", .float .nan)]
    let w : Json := .obj [("b", .float .nan), ("a", .arr [.float .one])]
    WellFormed v ∧ WellFormed w ∧ v.strictEq w = true ∧ Corresponds SameLeaf v w ∧
      ∃ u, w.part? [.member "a", .item 0] = some u ∧ u.quantity? = some (.ofInt 1) := by
  intro v w
  have hv : WellFormed v := ⟨by decide +kernel, ⟨trivial, trivial⟩, trivial, trivial⟩
  have hw : WellFormed w := ⟨by decide +kernel, trivial, ⟨trivial, trivial⟩, trivial⟩
  have heq : v.strictEq w = true := by decide +kernel
  obtain ⟨hiff, hboolean⟩ := strictEq_iff hv hw
  refine ⟨hv, hw, heq, (hiff.mp heq).2.2, ?_⟩
  rcases hboolean heq [.member "a", .item 0] true rfl with hsame | ⟨_, hnumber⟩
  · cases hsame
  · exact hnumber

/-- Inside arrays the equality of queries does not tell booleans from numbers. -/
theorem strictEq_boolean_in_array :
    let v : Json := .arr [.int 1]
    let w : Json := .arr [.bool true]
    WellFormed v ∧ WellFormed w ∧ v.strictEq w = true ∧ ¬ Corresponds SameBoolean v w := by
  intro v w
  refine ⟨⟨trivial, trivial⟩, ⟨trivial, trivial⟩, by decide +kernel, fun h => ?_⟩
  have hfaces : Faces SameBoolean (.int 1) (.bool true) := Option.rel_some_some.mp (h [.item 0])
  cases hfaces with
  | leaves _ _ hsame => exact nomatch (hsame true).mpr rfl

end

end RecordLog.Json
