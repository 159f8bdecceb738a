import RecordLog.Proofs.Json.Members
import RecordLog.Proofs.Settings.Store
import RecordLog.Settings.Merge

/-!
# One layer over another

`get?_merge` says what merging does under one key.  Two layers go along a path together as long
as both have a section.  Where they part, merged settings go on with one of the two: with the
upper layer if it has a value there, and with the lower one if the upper one has null or
nothing.  `mergedAt` says so of every path, by following it key by key.

What stands at a path is read off from its cases.  A plain value of the upper layer is read where
it stands (`find_merge_of_isPlain`).  Where the upper layer has null or nothing, and only
sections on the way, the lower layer is read (`find_merge_of_null`).
-/

namespace RecordLog.Section

/-- What two layers make of what they hold under one key. -/
def laid (below above : Option Json) : Option Json :=
  match above with
  | none => below
  | some .null => below
  | some v => some (mergeValue below v)

/-- A value other than null is laid over what is below. -/
theorem laid_of_ne_null (below : Option Json) {v : Json} (h : v ≠ .null) :
    laid below (some v) = some (mergeValue below v) := by
  cases v with
  | null => exact absurd rfl h
  | _ => rfl

/-- Null, or nothing, leaves what is below. -/
theorem laid_of_null (below : Option Json) {above : Option Json} (h : above.getD .null = .null) :
    laid below above = below := by
  cases above with
  | none => rfl
  | some v =>
      obtain rfl : v = .null := h
      rfl

/-- Two sections are merged, and any other value replaces what is below it. -/
theorem mergeValue_cases (below : Option Json) (v : Json) :
    (∃ base upper, below = some (.obj base) ∧ v = .obj upper ∧
      mergeValue below v = .obj (merge base upper)) ∨
    mergeValue below v = v ∧ ∀ base upper, below = some (.obj base) → v ≠ .obj upper := by
  cases v with
  | obj upper =>
      have hcopy : Json.obj (copyMembers upper) = .obj upper := congrArg Json.obj (copy_eq upper)
      cases below with
      | none => exact Or.inr ⟨hcopy, nofun⟩
      | some b =>
          cases b with
          | obj base => exact Or.inl ⟨base, upper, rfl, rfl, rfl⟩
          | _ => exact Or.inr ⟨hcopy, nofun⟩
  | _ => exact Or.inr ⟨rfl, nofun⟩

/-- An upper null changes nothing. -/
theorem merge_cons_null (base : Section) (key : Text) (later : Section) :
    merge base ((key, .null) :: later) = merge base later := rfl

/-- An upper value is put over what stands in its place, before the later members. -/
theorem merge_cons_of_ne_null (base : Section) (key : Text) {v : Json} (h : v ≠ .null)
    (later : Section) :
    merge base ((key, v) :: later) =
      merge (Members.set base key (mergeValue (Members.get? base key) v)) later := by
  simp only [merge, copy_eq, mergeMembers]

/-- Under each key stands what the two layers make of what they hold there. -/
theorem get?_merge {upper : Section} (h : (Members.keys upper).Nodup) (base : Section)
    (key : Text) :
    Members.get? (merge base upper) key =
      laid (Members.get? base key) (Members.get? upper key) := by
  induction upper generalizing base with
  | nil => exact congrArg (Members.get? · key) (copy_eq base)
  | cons kv later ih =>
      obtain ⟨k, v⟩ := kv
      obtain ⟨hk, hlater⟩ := List.nodup_cons.mp h
      by_cases hnull : v = .null
      · subst hnull
        rw [merge_cons_null, ih hlater, Members.get?]
        split
        · next hkey => rw [← hkey, Members.get?_eq_none_of_notMem hk]; rfl
        · rfl
      · rw [merge_cons_of_ne_null base k hnull, ih hlater, Members.get?]
        split
        · next hkey =>
            subst hkey
            rw [Members.get?_set_self, Members.get?_eq_none_of_notMem hk, laid_of_ne_null _ hnull]
            rfl
        · next hkey => rw [Members.get?_set_other base _ hkey]

/-! ### Where two layers part -/

variable {base upper : Section} {key : Text} {path : List Text}

/-- What merged settings hold at a path. -/
inductive MergedAt (base upper : Section) (path : List Text) : Prop
  /-- Both layers have a section there. -/
  | together (hbase : base.HasSection path) (hupper : upper.HasSection path)
      (hmerged : (merge base upper).HasSection path)
  /-- The layers part on the way, where the upper one has a value. -/
  | upper {p : List Text} (hp : p <+: path) (hvalue : upper.find p ≠ .null)
      (hpart : ¬ (base.HasSection p ∧ upper.HasSection p))
      (hmerged : (Json.obj (merge base upper)).at? path = (Json.obj upper).at? path)
  /-- The layers part on the way, where the upper one has null or nothing. -/
  | base {p : List Text} (hp : p <+: path) (hnull : upper.find p = .null)
      (hbefore : ∀ q, q <+: p → q ≠ p → base.HasSection q)
      (hmerged : (Json.obj (merge base upper)).at? path = (Json.obj base).at? path)

/-- Layers that have a section each under a key go on together. -/
theorem MergedAt.cons {below above : Section} (hbase : Members.get? base key = some (.obj below))
    (hupper : Members.get? upper key = some (.obj above))
    (hmerged : Members.get? (merge base upper) key = some (.obj (merge below above)))
    (h : MergedAt below above path) : MergedAt base upper (key :: path) := by
  have hat {u v : Section} (hv : Members.get? v key = some (.obj u)) (p : List Text) :
      (Json.obj v).at? (key :: p) = (Json.obj u).at? p := by
    rw [Json.at?_obj_cons, hv, Option.bind_some]
  cases h with
  | together hb hu hm =>
      exact .together ((hasSection_cons_iff hbase).mpr hb) ((hasSection_cons_iff hupper).mpr hu)
        ((hasSection_cons_iff hmerged).mpr hm)
  | @upper p hp hvalue hpart hm =>
      refine .upper ((List.prefix_cons_inj key).mpr hp) ?_ ?_ ?_
      · rwa [find_cons_of_obj hupper]
      · rwa [hasSection_cons_iff hbase, hasSection_cons_iff hupper]
      · rw [hat hmerged, hat hupper, hm]
  | @base p hp hnull hbefore hm =>
      refine .base ((List.prefix_cons_inj key).mpr hp) ?_ ?_ ?_
      · rwa [find_cons_of_obj hupper]
      · intro q hq hne
        rcases List.prefix_cons_iff.mp hq with rfl | ⟨r, rfl, hr⟩
        · exact hasSection_nil base
        · refine (hasSection_cons_iff hbase).mpr (hbefore r hr ?_)
          rintro rfl
          exact hne rfl
      · rw [hat hmerged, hat hbase, hm]

/-- At every path merged layers hold what `MergedAt` says. -/
theorem mergedAt (h : Json.WellFormed (.obj upper)) (base : Section) (path : List Text) :
    MergedAt base upper path := by
  induction path generalizing base upper with
  | nil => exact .together (hasSection_nil base) (hasSection_nil upper) (hasSection_nil _)
  | cons key path ih =>
      have hp : [key] <+: key :: path := (List.prefix_cons_inj key).mpr path.nil_prefix
      have hmerged := get?_merge h.1 base key
      by_cases hnull : upper.find [key] = .null
      · have hsame := hmerged.trans (laid_of_null (Members.get? base key) hnull)
        refine .base hp hnull ?_ ?_
        · intro q hq hne
          rcases List.prefix_cons_iff.mp hq with rfl | ⟨r, rfl, hr⟩
          · exact hasSection_nil base
          · exact absurd (congrArg (key :: ·) (List.prefix_nil.mp hr)) hne
        · rw [Json.at?_obj_cons, Json.at?_obj_cons, hsame]
      · obtain ⟨v, hkey, hv⟩ := exists_get?_of_find_ne_null hnull
        rw [hkey, laid_of_ne_null _ hv] at hmerged
        rcases mergeValue_cases (Members.get? base key) v with
          ⟨below, above, hbelow, rfl, hmerge⟩ | ⟨hmerge, hother⟩
        · exact (ih (h.get? hkey) below).cons hbelow hkey (hmerged.trans (congrArg some hmerge))
        · refine .upper hp hnull ?_ ?_
          · rintro ⟨⟨below, hbelow⟩, ⟨above, habove⟩⟩
            rw [Json.at?_obj_singleton] at hbelow habove
            exact hother below above hbelow (Option.some.inj (hkey.symm.trans habove))
          · rw [Json.at?_obj_cons, Json.at?_obj_cons, hmerged, hmerge, hkey]

/-! ### What stands at a path -/

/-- A plain value of the upper layer stands where it stood. -/
theorem at?_merge_of_isPlain (h : Json.WellFormed (.obj upper)) (base : Section) {v : Json}
    (hv : v.isPlain = true) (hat : (Json.obj upper).at? path = some v) :
    (Json.obj (merge base upper)).at? path = some v := by
  have hfind : upper.find path = v := (find_eq_iff hv).mpr hat
  cases mergedAt h base path with
  | together _ hupper _ =>
      obtain ⟨t, ht⟩ := hupper
      exact absurd (Option.some.inj (hat.symm.trans ht)) (Json.ne_obj_of_isPlain hv t)
  | upper _ _ _ hmerged => exact hmerged.trans hat
  | @base p hp hnull _ _ =>
      by_cases hne : p = path
      · rw [hne, hfind] at hnull
        rw [hnull] at hv
        cases hv
      · exact absurd hnull (hasSection_of_at? hat hp hne).find_ne_null

/-- A plain value of the upper layer is found in merged layers. -/
theorem find_merge_of_isPlain (h : Json.WellFormed (.obj upper)) (base : Section)
    (hplain : (upper.find path).isPlain = true) :
    (merge base upper).find path = upper.find path :=
  (find_eq_iff hplain).mpr (at?_merge_of_isPlain h base hplain ((find_eq_iff hplain).mp rfl))

/-- Where the upper layer has null or nothing, and nothing plain on the way, what the lower
layer has stays. -/
theorem at?_merge_of_null (h : Json.WellFormed (.obj upper)) {v : Json}
    (hnull : upper.find path = .null)
    (hclear : ∀ p, p <+: path → p ≠ path → (upper.find p).isPlain = false)
    (hat : (Json.obj base).at? path = some v) :
    (Json.obj (merge base upper)).at? path = some v := by
  cases mergedAt h base path with
  | together _ hupper _ => exact absurd hnull hupper.find_ne_null
  | @upper p hp hvalue hpart _ =>
      -- What is neither null nor plain is a section, and there the layers do not part: the lower
      -- one goes on to the end of the path.
      have hne : p ≠ path := by
        rintro rfl
        exact hvalue hnull
      have hupper : upper.HasSection p := hasSection_of_not_isPlain hvalue (hclear p hp hne)
      exact absurd ⟨hasSection_of_at? hat hp hne, hupper⟩ hpart
  | base _ _ _ hmerged => exact hmerged.trans hat

/-- Where the upper layer has null or nothing, and nothing plain on the way, the lower layer is
read. -/
theorem find_merge_of_null (h : Json.WellFormed (.obj upper)) (base : Section)
    (hnull : upper.find path = .null)
    (hclear : ∀ p, p <+: path → (upper.find p).isPlain = false) :
    (merge base upper).find path = base.find path := by
  rw [find_eq base]
  cases hat : (Json.obj base).at? path with
  | some v => rw [find_eq, at?_merge_of_null h hnull (fun p hp _ => hclear p hp) hat]
  | none =>
      rw [Option.getD_none]
      cases mergedAt h base path with
      | together _ hupper _ => exact absurd hnull hupper.find_ne_null
      | upper _ _ _ hmerged => rw [find_eq, hmerged, ← find_eq, hnull]
      | base _ _ _ hmerged => rw [find_eq, hmerged, hat, Option.getD_none]

end RecordLog.Section
