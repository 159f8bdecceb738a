import RecordLog.Proofs.Json.Equality
import RecordLog.Proofs.Json.RoundTrip
import RecordLog.Proofs.Json.SortedMembers

/-!
# The canonical written form

The canonical style writes the members of every object in the order of their keys.  It writes a
value as the style without that order writes the value with its members put in order
(`write_canonical`), which can be read back.  Putting members in order gives one value for all
orders of members and for nothing else (`ordered_eq_iff`): two values that have one shape and
the same leaves at every position.

So the canonical form tells values apart up to the order of members, and only up to it
(`write_canonical_eq_iff`).
-/

namespace RecordLog.Json

/-! ### Values in order -/

mutual

/-- The value with the members of every object in the order of their keys. -/
def ordered : Json → Json
  | arr items => arr (orderedItems items)
  | obj members => obj (sortMembers (orderedMembers members))
  | v => v

/-- The items, each in order. -/
def orderedItems : List Json → List Json
  | [] => []
  | v :: later => ordered v :: orderedItems later

/-- The members, the value of each in order. -/
def orderedMembers : List (Text × Json) → List (Text × Json)
  | [] => []
  | (key, v) :: later => (key, ordered v) :: orderedMembers later

end

/-- Members are put into order value by value, and keep their own order. -/
theorem orderedMembers_eq_map (members : Members) :
    orderedMembers members = members.map (Prod.map id ordered) := by
  induction members with
  | nil => rfl
  | cons kv later ih => exact congrArg (_ :: ·) ih

/-- Members are written value by value, under their own keys. -/
theorem writeMembers_eq_map (style : Style) (members : Members) :
    writeMembers style members = members.map (Prod.map id (write style)) := by
  induction members with
  | nil => rfl
  | cons kv later ih => exact congrArg (_ :: ·) ih

mutual

/-- The canonical style writes a value as it is in order. -/
theorem write_canonical : ∀ v : Json, write .canonical v = write .ascii v.ordered
  | null => rfl
  | bool true => rfl
  | bool false => rfl
  | int _ => rfl
  | float _ => rfl
  | str _ => rfl
  | arr items => congrArg (bracketed '[' ']' _) (writeItems_canonical items)
  | obj members => by
      have hsorted : arranged .canonical (writeMembers .canonical members) =
          arranged .ascii (writeMembers .ascii (sortMembers (orderedMembers members))) := by
        rw [writeMembers_canonical, writeMembers_eq_map, writeMembers_eq_map, ← sortMembers_map]
        rfl
      exact congrArg (bracketed '\x7B' '\x7D' _) hsorted

/-- The items of an array are written canonically if they are put into order first. -/
theorem writeItems_canonical : ∀ items : List Json,
    writeItems .canonical items = writeItems .ascii (orderedItems items)
  | [] => rfl
  | v :: later => congrArg₂ List.cons (write_canonical v) (writeItems_canonical later)

theorem writeMembers_canonical : ∀ members : Members,
    writeMembers .canonical members = writeMembers .ascii (orderedMembers members)
  | [] => rfl
  | (key, v) :: later =>
    congrArg₂ List.cons (congrArg (Prod.mk key) (write_canonical v)) (writeMembers_canonical later)

end

/-! ### What order keeps -/

/-- Putting the values into order leaves the keys as they are. -/
theorem keys_orderedMembers (members : Members) :
    Members.keys (orderedMembers members) = Members.keys members := by
  rw [orderedMembers_eq_map, Members.keys, List.map_map]
  rfl

/-- Sorting rearranges the keys. -/
theorem keys_sortMembers_perm (members : Members) :
    (Members.keys (sortMembers members)).Perm (Members.keys members) :=
  (sortMembers_perm members).map Prod.fst

/-- The keys of an object in order are those of the object. -/
theorem nodup_keys_ordered {members : Members} (h : (Members.keys members).Nodup) :
    (Members.keys (sortMembers (orderedMembers members))).Nodup := by
  rw [(keys_sortMembers_perm _).nodup_iff, keys_orderedMembers]
  exact h

mutual

/-- A value that can be read can be read in order. -/
theorem Readable.ordered : ∀ {v : Json}, Readable v → Readable v.ordered
  | null, _ => trivial
  | bool _, _ => trivial
  | int _, h => h
  | float _, _ => trivial
  | str _, _ => trivial
  | arr _, h => ReadableItems.ordered h
  | obj _, h => by
      refine ⟨nodup_keys_ordered h.1, readableMembers_iff.mpr fun kv hkv => ?_⟩
      exact readableMembers_iff.mp (ReadableMembers.ordered h.2) kv
        ((sortMembers_perm _).mem_iff.mp hkv)

theorem ReadableItems.ordered : ∀ {items : List Json}, ReadableItems items →
    ReadableItems (orderedItems items)
  | [], _ => trivial
  | _ :: _, h => ⟨h.1.ordered, ReadableItems.ordered h.2⟩

theorem ReadableMembers.ordered : ∀ {members : Members}, ReadableMembers members →
    ReadableMembers (orderedMembers members)
  | [], _ => trivial
  | _ :: _, h => ⟨h.1.ordered, ReadableMembers.ordered h.2⟩

end

mutual

/-- Putting a value into order makes up no text. -/
theorem EachText.ordered {K : Text → Prop} : ∀ {v : Json}, EachText K v → EachText K v.ordered
  | null, _ => trivial
  | bool _, _ => trivial
  | int _, _ => trivial
  | float _, _ => trivial
  | str _, h => h
  | arr _, h => EachItemText.ordered h
  | obj _, h => by
      refine eachMemberText_iff.mpr fun kv hkv => ?_
      exact eachMemberText_iff.mp (EachMemberText.ordered h) kv
        ((sortMembers_perm _).mem_iff.mp hkv)

theorem EachItemText.ordered {K : Text → Prop} : ∀ {items : List Json}, EachItemText K items →
    EachItemText K (orderedItems items)
  | [], _ => trivial
  | _ :: _, h => ⟨h.1.ordered, EachItemText.ordered h.2⟩

theorem EachMemberText.ordered {K : Text → Prop} : ∀ {members : Members},
    EachMemberText K members → EachMemberText K (orderedMembers members)
  | [], _ => trivial
  | _ :: _, h => ⟨h.1, h.2.1.ordered, EachMemberText.ordered h.2.2⟩

end

/-! ### One value for all orders -/

/-- Under a key stands the value that stood there, in order. -/
theorem get?_orderedMembers (members : Members) (key : Text) :
    Members.get? (orderedMembers members) key = (Members.get? members key).map ordered := by
  induction members with
  | nil => rfl
  | cons kv later ih =>
      obtain ⟨k, v⟩ := kv
      rw [orderedMembers, Members.get?, Members.get?, ih]
      split <;> rfl

/-- Objects with different keys that have one value under every key have the same members. -/
theorem perm_of_get?_eq {ms ns : Members} (hms : (Members.keys ms).Nodup)
    (hns : (Members.keys ns).Nodup)
    (h : ∀ key, Members.get? ms key = Members.get? ns key) : ms.Perm ns := by
  refine (List.perm_ext_iff_of_nodup (.of_map _ hms) (.of_map _ hns)).mpr fun kv => ?_
  constructor
  · intro hkv
    exact Members.mem_of_get? ((h kv.1).symm.trans (Members.get?_of_mem hms hkv))
  · intro hkv
    exact Members.mem_of_get? ((h kv.1).trans (Members.get?_of_mem hns hkv))

/-- The order of members with distinct keys does not matter to a lookup. -/
theorem get?_eq_of_perm {ms ns : Members} (hms : (Members.keys ms).Nodup) (h : ms.Perm ns)
    (key : Text) : Members.get? ms key = Members.get? ns key := by
  have hns : (Members.keys ns).Nodup := (h.map Prod.fst).nodup_iff.mp hms
  cases hv : Members.get? ms key with
  | some v => exact (Members.get?_of_mem hns (h.mem_iff.mp (Members.mem_of_get? hv))).symm
  | none =>
      cases hw : Members.get? ns key with
      | none => rfl
      | some w =>
          have hw' := Members.get?_of_mem hms (h.mem_iff.mpr (Members.mem_of_get? hw))
          rw [hv] at hw'
          cases hw'

mutual

/-- A value has the shape and the leaves of the value in order. -/
theorem corresponds_ordered : ∀ {v : Json}, WellFormed v → Corresponds Eq v v.ordered
  | null, _ => .refl (fun _ _ => rfl) _
  | bool _, _ => .refl (fun _ _ => rfl) _
  | int _, _ => .refl (fun _ _ => rfl) _
  | float _, _ => .refl (fun _ _ => rfl) _
  | str _, _ => .refl (fun _ _ => rfl) _
  | arr _, h => corresponds_arr.mpr (forall₂_orderedItems h)
  | obj members, h => by
      refine corresponds_obj.mpr fun key => ?_
      rw [get?_eq_of_perm (nodup_keys_ordered h.1) (sortMembers_perm _), get?_orderedMembers]
      cases hv : Members.get? members key with
      | none => exact .none
      | some v => exact .some (corresponds_ordered_member h.2 (key, v) (Members.mem_of_get? hv))

/-- Items correspond to themselves in order, one by one. -/
theorem forall₂_orderedItems : ∀ {items : List Json}, WellFormedItems items →
    List.Forall₂ (Corresponds Eq) items (orderedItems items)
  | [], _ => .nil
  | _ :: _, h => .cons (corresponds_ordered h.1) (forall₂_orderedItems h.2)

/-- The value of a member corresponds to itself in order. -/
theorem corresponds_ordered_member : ∀ {members : Members}, WellFormedMembers members →
    ∀ kv ∈ members, Corresponds Eq kv.2 (ordered kv.2)
  | [], _ => nofun
  | (_, _) :: _, h =>
    List.forall_mem_cons.mpr ⟨corresponds_ordered h.1, corresponds_ordered_member h.2⟩

end

/-- Objects with the same values in order under every key are one object in order. -/
theorem ordered_obj_eq {ms ns : Members} (hms : (Members.keys ms).Nodup)
    (hns : (Members.keys ns).Nodup)
    (h : ∀ key, Option.Rel (fun v w => ordered v = ordered w) (Members.get? ms key)
      (Members.get? ns key)) : (obj ms).ordered = (obj ns).ordered := by
  rw [← keys_orderedMembers] at hms hns
  refine congrArg obj (sortMembers_eq_of_perm hms (perm_of_get?_eq hms hns fun key => ?_))
  rw [get?_orderedMembers, get?_orderedMembers]
  have hkey := h key
  generalize Members.get? ms key = found, Members.get? ns key = found' at hkey
  cases hkey with
  | some hvw => exact congrArg some hvw
  | none => rfl

/-- Only a leaf itself corresponds to it. -/
theorem eq_of_corresponds_leaf {v w : Json} (hv : v.isLeaf) (h : Corresponds Eq v w) : w = v :=
  ((corresponds_of_isLeaf hv).mp h).2.symm

mutual

/-- Values of one shape with the same leaves are one value in order. -/
theorem ordered_eq_of_corresponds : ∀ {v w : Json}, WellFormed v → WellFormed w →
    Corresponds Eq v w → v.ordered = w.ordered
  | arr vs, w, hv, hw, h => by
      cases w with
      | arr ws => exact congrArg arr (orderedItems_eq_of_forall₂ hv hw (corresponds_arr.mp h))
      | obj ns => exact absurd h not_corresponds_arr_obj.1
      | _ => cases h.isLeaf_eq
  | obj ms, w, hv, hw, h => by
      cases w with
      | arr ws => exact absurd h not_corresponds_arr_obj.2
      | obj ns =>
          refine ordered_obj_eq hv.1 hw.1 fun key => ?_
          have hkey := corresponds_obj.mp h key
          cases hvs : Members.get? ms key with
          | none =>
              rw [hvs] at hkey
              generalize Members.get? ns key = found at hkey ⊢
              cases hkey
              exact .none
          | some v =>
              cases hws : Members.get? ns key with
              | none =>
                  rw [hvs, hws] at hkey
                  cases hkey
              | some w =>
                  rw [hvs, hws] at hkey
                  exact .some (ordered_eq_of_corresponds_member hv.2 (key, v)
                    (Members.mem_of_get? hvs) (hw.get? hws) (Option.rel_some_some.mp hkey))
      | _ => cases h.isLeaf_eq
  | null, _, _, _, h => congrArg ordered (eq_of_corresponds_leaf rfl h).symm
  | bool _, _, _, _, h => congrArg ordered (eq_of_corresponds_leaf rfl h).symm
  | int _, _, _, _, h => congrArg ordered (eq_of_corresponds_leaf rfl h).symm
  | float _, _, _, _, h => congrArg ordered (eq_of_corresponds_leaf rfl h).symm
  | str _, _, _, _, h => congrArg ordered (eq_of_corresponds_leaf rfl h).symm

theorem orderedItems_eq_of_forall₂ : ∀ {vs ws : List Json}, WellFormedItems vs →
    WellFormedItems ws → List.Forall₂ (Corresponds Eq) vs ws → orderedItems vs = orderedItems ws
  | [], [], _, _, _ => rfl
  | _ :: _, _ :: _, hv, hw, .cons h hlater =>
    congrArg₂ List.cons (ordered_eq_of_corresponds hv.1 hw.1 h)
      (orderedItems_eq_of_forall₂ hv.2 hw.2 hlater)

/-- The value of a member is the same in order as one that corresponds to it. -/
theorem ordered_eq_of_corresponds_member : ∀ {ms : Members}, WellFormedMembers ms →
    ∀ kv ∈ ms, ∀ {w : Json}, WellFormed w → Corresponds Eq kv.2 w → ordered kv.2 = w.ordered
  | [], _, _, h, _, _, _ => absurd h List.not_mem_nil
  | (_, _) :: _, hms, kv, hkv, _, hw, h => by
      rcases List.mem_cons.mp hkv with rfl | hkv
      · exact ordered_eq_of_corresponds hms.1 hw h
      · exact ordered_eq_of_corresponds_member hms.2 kv hkv hw h

end

section

variable {v w : Json}

/-- Two values are one value in order if they have one shape and the same leaves. -/
theorem ordered_eq_iff (hv : WellFormed v) (hw : WellFormed w) :
    v.ordered = w.ordered ↔ Corresponds Eq v w := by
  constructor
  · intro h
    have hvw : Corresponds Eq v w.ordered := h ▸ corresponds_ordered hv
    exact hvw.trans Eq.trans ((corresponds_ordered hw).symm Eq.symm)
  · exact ordered_eq_of_corresponds hv hw

/-- **The canonical form tells values apart up to the order of members**, and only up to it. -/
theorem write_canonical_eq_iff (hv : Readable v) (hw : Readable w)
    (hvpairs : EachText PairsJoined v) (hwpairs : EachText PairsJoined w) :
    write .canonical v = write .canonical w ↔ Corresponds Eq v w := by
  rw [← ordered_eq_iff hv.wellFormed hw.wellFormed, write_canonical, write_canonical]
  constructor
  · intro h
    have hread := read_write_ascii hv.ordered hvpairs.ordered
    rw [h, read_write_ascii hw.ordered hwpairs.ordered] at hread
    exact (Except.ok.inj hread).symm
  · exact congrArg (write .ascii)

end

end RecordLog.Json
