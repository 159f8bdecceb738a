import Mathlib.Data.List.Nodup
import RecordLog.Json

/-!
# Members of objects

What setting a member does to the keys and to the members of an object, and what is found
under a key.  No operation gives an object a key twice, so objects that start out well formed
stay so (`Json.WellFormed.set`), and so is whatever is found in them
(`Json.WellFormed.get?`).
-/

namespace RecordLog

namespace Members

/-- Setting a key leaves the order of the keys, or adds the key at the end. -/
theorem keys_set (m : Members) (key : Text) (v : Json) :
    (m.set key v).keys = if key ∈ m.keys then m.keys else m.keys ++ [key] := by
  induction m with
  | nil => rfl
  | cons kv m ih =>
      obtain ⟨k, w⟩ := kv
      by_cases hk : k = key
      · have hmem : key ∈ keys ((k, w) :: m) := hk ▸ List.mem_cons_self
        rw [set, if_pos hk, if_pos hmem]
        rfl
      · have hmem : key ∈ keys ((k, w) :: m) ↔ key ∈ keys m :=
          ⟨fun h => (List.mem_cons.mp h).resolve_left (Ne.symm hk), List.mem_cons_of_mem k⟩
        have hcons : ∀ later, keys ((k, w) :: later) = k :: keys later := fun _ => rfl
        rw [set, if_neg hk, hcons, ih]
        simp only [hmem]
        split <;> rfl

/-- A new member goes to the end. -/
theorem set_of_notMem {m : Members} {key : Text} (h : key ∉ m.keys) (v : Json) :
    m.set key v = m ++ [(key, v)] := by
  induction m with
  | nil => rfl
  | cons kv m ih =>
      obtain ⟨k, w⟩ := kv
      obtain ⟨hk, hm⟩ := not_or.mp (mt List.mem_cons.mpr h)
      rw [set, if_neg (Ne.symm hk), ih hm, List.cons_append]

/-- Setting what is there changes nothing. -/
theorem set_of_get? {m : Members} {key : Text} {v : Json} (h : m.get? key = some v) :
    m.set key v = m := by
  induction m with
  | nil => cases h
  | cons kv m ih =>
      obtain ⟨k, w⟩ := kv
      rw [get?] at h
      rw [set]
      split at h
      · next hk =>
          obtain rfl := Option.some.inj h
          rw [if_pos hk, hk]
      · next hk => rw [if_neg hk, ih h]

/-- Setting a key keeps the keys distinct. -/
theorem nodup_keys_set {m : Members} (h : m.keys.Nodup) (key : Text) (v : Json) :
    (m.set key v).keys.Nodup := by
  rw [keys_set]
  split
  · exact h
  · next hkey =>
      rw [← List.concat_eq_append]
      exact h.concat hkey

/-- Setting a key adds its own member only. -/
theorem mem_set {m : Members} {key : Text} {v : Json} {kv : Text × Json}
    (h : kv ∈ m.set key v) : kv ∈ m ∨ kv = (key, v) := by
  induction m with
  | nil => exact Or.inr (List.mem_singleton.mp h)
  | cons kw m ih =>
      obtain ⟨k, w⟩ := kw
      rw [set] at h
      split at h
      · next hk =>
          rcases List.mem_cons.mp h with rfl | h
          · exact Or.inr (by rw [hk])
          · exact Or.inl (List.mem_cons_of_mem _ h)
      · rcases List.mem_cons.mp h with rfl | h
        · exact Or.inl List.mem_cons_self
        · exact (ih h).imp_left (List.mem_cons_of_mem _)

theorem setAll_cons (m : Members) (kv : Text × Json) (upper : Members) :
    m.setAll (kv :: upper) = (m.set kv.1 kv.2).setAll upper := rfl

theorem nodup_keys_setAll {m : Members} (h : m.keys.Nodup) (upper : Members) :
    (m.setAll upper).keys.Nodup := by
  induction upper generalizing m with
  | nil => exact h
  | cons kv upper ih => exact ih (nodup_keys_set h kv.1 kv.2)

/-- Setting members adds no other member. -/
theorem mem_setAll {m upper : Members} {kv : Text × Json} (h : kv ∈ m.setAll upper) :
    kv ∈ m ∨ kv ∈ upper := by
  induction upper generalizing m with
  | nil => exact Or.inl h
  | cons kw upper ih =>
      rw [setAll_cons] at h
      rcases ih h with h | h
      · rcases mem_set h with h | rfl
        · exact Or.inl h
        · exact Or.inr List.mem_cons_self
      · exact Or.inr (List.mem_cons_of_mem kw h)

/-- Members with new, distinct keys are appended. -/
theorem setAll_eq_append {m upper : Members} (h : (keys (m ++ upper)).Nodup) :
    m.setAll upper = m ++ upper := by
  induction upper generalizing m with
  | nil => exact (List.append_nil m).symm
  | cons kv upper ih =>
      have hkeys : keys (m ++ kv :: upper) = keys m ++ kv.1 :: keys upper := List.map_append
      have hnew : kv.1 ∉ m.keys := by
        intro hmem
        rw [hkeys] at h
        exact (List.nodup_append.mp h).2.2 _ hmem _ List.mem_cons_self rfl
      rw [setAll_cons, set_of_notMem hnew, ih]
      · rw [List.append_assoc, List.singleton_append]
      · rwa [List.append_assoc, List.singleton_append]

/-- Members with distinct keys stay as they are. -/
theorem ofList_eq_self {m : Members} (h : m.keys.Nodup) : ofList m = m :=
  setAll_eq_append h

/-- What stands under a key is a member. -/
theorem mem_of_get? {m : Members} {key : Text} {v : Json} (h : m.get? key = some v) :
    (key, v) ∈ m := by
  induction m with
  | nil => cases h
  | cons kv m ih =>
      obtain ⟨k, w⟩ := kv
      rw [get?] at h
      split at h
      · next hk =>
          rw [hk, Option.some.inj h]
          exact List.mem_cons_self
      · exact List.mem_cons_of_mem _ (ih h)

/-- Nothing stands under a key that is none of the keys. -/
theorem get?_eq_none_of_notMem {m : Members} {key : Text} (h : key ∉ m.keys) :
    m.get? key = none := by
  induction m with
  | nil => rfl
  | cons kv m ih =>
      obtain ⟨k, v⟩ := kv
      obtain ⟨hk, hm⟩ := not_or.mp (mt List.mem_cons.mpr h)
      rw [get?, if_neg (Ne.symm hk), ih hm]

/-- A key is one of the keys exactly if something stands under it. -/
theorem mem_keys_iff {m : Members} {key : Text} : key ∈ m.keys ↔ ∃ v, m.get? key = some v := by
  constructor
  · intro h
    induction m with
    | nil => cases h
    | cons kv m ih =>
        obtain ⟨k, w⟩ := kv
        rw [get?]
        split
        · exact ⟨w, rfl⟩
        · next hk => exact ih ((List.mem_cons.mp h).resolve_left (Ne.symm hk))
  · rintro ⟨v, hv⟩
    exact List.mem_map_of_mem (mem_of_get? hv)

/-- With distinct keys, every member is found under its key. -/
theorem get?_of_mem {m : Members} {key : Text} {v : Json} (hkeys : m.keys.Nodup)
    (h : (key, v) ∈ m) : m.get? key = some v := by
  induction m with
  | nil => cases h
  | cons kv m ih =>
      obtain ⟨k, w⟩ := kv
      obtain ⟨hk, hm⟩ := List.nodup_cons.mp hkeys
      rcases List.mem_cons.mp h with heq | hlater
      · obtain ⟨rfl, rfl⟩ := Prod.mk.inj heq
        rw [get?, if_pos rfl]
      · have hne : k ≠ key := by
          rintro rfl
          exact hk (List.mem_map.mpr ⟨_, hlater, rfl⟩)
        rw [get?, if_neg hne, ih hm hlater]

/-- Leaving nulls out leaves the other members as they are. -/
theorem get?_filter_isNull {m : Members} (h : m.keys.Nodup) (key : Text) :
    get? (m.filter fun (_, v) => !v.isNull) key = (m.get? key).filter fun v => !v.isNull := by
  induction m with
  | nil => rfl
  | cons kv m ih =>
      obtain ⟨k, v⟩ := kv
      obtain ⟨hk, hm⟩ := List.nodup_cons.mp h
      by_cases hnull : v.isNull = true
      · have hdrop : ((k, v) :: m).filter (fun (_, v) => !v.isNull) =
            m.filter fun (_, v) => !v.isNull :=
          List.filter_cons_of_neg (by simp [hnull])
        rw [hdrop, ih hm, get?]
        split
        · next hkey =>
            rw [← hkey, get?_eq_none_of_notMem hk, Option.filter_some, hnull]
            rfl
        · rfl
      · have hkeep : ((k, v) :: m).filter (fun (_, v) => !v.isNull) =
            (k, v) :: m.filter fun (_, v) => !v.isNull :=
          List.filter_cons_of_pos (by simp [hnull])
        rw [hkeep, get?, get?, ih hm]
        split
        · rw [Option.filter_some, if_pos (by simp [hnull])]
        · rfl

/-- What is set last counts, and the rest is as before. -/
theorem get?_setAll (m : Members) {upper : Members} (h : upper.keys.Nodup) (key : Text) :
    (m.setAll upper).get? key = (upper.get? key).or (m.get? key) := by
  induction upper generalizing m with
  | nil => rfl
  | cons kv upper ih =>
      obtain ⟨k, v⟩ := kv
      obtain ⟨hk, hupper⟩ := List.nodup_cons.mp h
      rw [setAll_cons, ih (m.set k v) hupper]
      by_cases hkey : k = key
      · subst hkey
        rw [get?_eq_none_of_notMem hk, get?_set_self, get?, if_pos rfl]
        rfl
      · rw [get?_set_other m v hkey, get?, if_neg hkey]

end Members

namespace Json

/-- Members are well formed if each value is. -/
theorem wellFormedMembers_iff {m : Members} :
    WellFormedMembers m ↔ ∀ kv ∈ m, WellFormed kv.2 := by
  induction m with
  | nil => exact iff_of_true trivial (List.forall_mem_nil _)
  | cons kv later ih => rw [WellFormedMembers, ih, List.forall_mem_cons]

variable {m : Members} {key : Text} {v : Json}

/-- What stands under a key of a well-formed object is well formed. -/
theorem WellFormed.get? (h : WellFormed (.obj m)) (hv : m.get? key = some v) : WellFormed v :=
  wellFormedMembers_iff.mp h.2 (key, v) (Members.mem_of_get? hv)

theorem WellFormed.set (h : WellFormed (.obj m)) (key : Text) (hv : WellFormed v) :
    WellFormed (.obj (m.set key v)) := by
  refine ⟨Members.nodup_keys_set h.1 key v, wellFormedMembers_iff.mpr ?_⟩
  intro kv hkv
  rcases Members.mem_set hkv with hold | rfl
  · exact wellFormedMembers_iff.mp h.2 kv hold
  · exact hv

end Json

end RecordLog
