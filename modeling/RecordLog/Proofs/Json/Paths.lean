import Mathlib.Data.List.Infix
import RecordLog.Json

/-!
# Paths into values

A path of keys leads from an object into the objects that it holds.  `Json.at?` says what
stands at its end; nothing does if a key on the way is missing or if a value on the way is no
object.  Of two paths one begins with the other, or they are `Apart` (`Apart.cases`).
-/

namespace RecordLog

namespace Json

/-- The value under a key of an object; nothing in any other value. -/
def member? (v : Json) (key : Text) : Option Json :=
  v.members?.bind fun members => Members.get? members key

/-- Whether a value is neither null nor an object. -/
def isPlain : Json → Bool
  | null => false
  | obj _ => false
  | _ => true

/-- What stands at a path of keys inside a value. -/
def at? : Json → List Text → Option Json
  | v, [] => some v
  | v, key :: path => (v.member? key).bind fun w => w.at? path

/-- A path is followed key by key. -/
theorem at?_cons (v : Json) (key : Text) (path : List Text) :
    v.at? (key :: path) = (v.member? key).bind fun w => w.at? path := rfl

/-- The first key of a path leads to a member of an object. -/
theorem at?_obj_cons (members : Members) (key : Text) (path : List Text) :
    (obj members).at? (key :: path) = (Members.get? members key).bind fun w => w.at? path := rfl

theorem at?_obj_singleton (members : Members) (key : Text) :
    (obj members).at? [key] = Members.get? members key := by
  rw [at?_obj_cons]
  cases Members.get? members key <;> rfl

/-- Following one path and then another. -/
theorem at?_append (v : Json) (p q : List Text) :
    v.at? (p ++ q) = (v.at? p).bind fun w => w.at? q := by
  induction p generalizing v with
  | nil => rfl
  | cons key p ih =>
      rw [List.cons_append, at?_cons, at?_cons, Option.bind_assoc]
      congr 1
      funext w
      exact ih w

/-- Where a path goes on, an object stands. -/
theorem exists_obj_of_at?_append {v w : Json} {p q : List Text} (hq : q ≠ [])
    (h : v.at? (p ++ q) = some w) : ∃ members, v.at? p = some (.obj members) := by
  rw [at?_append, Option.bind_eq_some_iff] at h
  obtain ⟨u, hu, hw⟩ := h
  obtain ⟨key, path, rfl⟩ := List.exists_cons_of_ne_nil hq
  rw [at?_cons, Option.bind_eq_some_iff] at hw
  obtain ⟨_, hmember, _⟩ := hw
  cases u with
  | obj members => exact ⟨members, hu⟩
  | _ => cases hmember

/-- A plain value is no object. -/
theorem ne_obj_of_isPlain {v : Json} (h : v.isPlain = true) (members : Members) :
    v ≠ .obj members := by
  rintro rfl
  cases h

/-- Nothing stands beyond a plain value. -/
theorem at?_of_isPlain {v w : Json} (h : v.isPlain = true) {path : List Text}
    (hw : v.at? path = some w) : path = [] ∧ w = v := by
  cases path with
  | nil => exact ⟨rfl, (Option.some.inj hw).symm⟩
  | cons key path =>
      cases v with
      | null | obj => cases h
      | _ => cases hw

end Json

/-- Two paths of keys of which neither begins with the other. -/
def Apart (p q : List Text) : Prop :=
  ¬ p <+: q ∧ ¬ q <+: p

instance (p q : List Text) : Decidable (Apart p q) :=
  inferInstanceAs (Decidable (_ ∧ _))

namespace Apart

variable {p q : List Text}

theorem symm (h : Apart p q) : Apart q p :=
  ⟨h.2, h.1⟩

/-- Paths that are apart stay so however far the second one goes on. -/
theorem append_right (h : Apart p q) (r : List Text) : Apart p (q ++ r) := by
  constructor
  · intro hp
    exact (List.prefix_or_prefix_of_prefix hp (List.prefix_append q r)).elim h.1 h.2
  · intro hqr
    exact h.2 ((List.prefix_append q r).trans hqr)

theorem ne_nil_left (h : Apart p q) : p ≠ [] := by
  rintro rfl
  exact h.1 q.nil_prefix

theorem ne_nil_right (h : Apart p q) : q ≠ [] :=
  h.symm.ne_nil_left

/-- Paths that are apart begin with different keys, or are apart after the first key. -/
theorem of_cons {key other : Text} (h : Apart (key :: p) (other :: q)) :
    key ≠ other ∨ Apart p q := by
  by_cases hkey : key = other
  · subst hkey
    right
    constructor
    · intro hp
      exact h.1 ((List.prefix_cons_inj key).mpr hp)
    · intro hq
      exact h.2 ((List.prefix_cons_inj key).mpr hq)
  · exact Or.inl hkey

/-- Paths that begin with different keys are apart. -/
theorem cons_of_ne {key other : Text} (h : key ≠ other) (p q : List Text) :
    Apart (key :: p) (other :: q) :=
  ⟨fun hp => h (List.cons_prefix_cons.mp hp).1, fun hq => h (List.cons_prefix_cons.mp hq).1.symm⟩

/-- Paths that are apart stay so behind the same keys. -/
theorem append_left (h : Apart p q) (r : List Text) : Apart (r ++ p) (r ++ q) :=
  ⟨mt (List.prefix_append_right_inj r).mp h.1, mt (List.prefix_append_right_inj r).mp h.2⟩

/-- Of two paths one begins with the other, or they are apart. -/
theorem cases (p q : List Text) :
    (∃ r, q = p ++ r) ∨ (∃ r, r ≠ [] ∧ p = q ++ r) ∨ Apart p q := by
  by_cases hp : p <+: q
  · obtain ⟨r, hr⟩ := hp
    exact Or.inl ⟨r, hr.symm⟩
  · by_cases hq : q <+: p
    · obtain ⟨r, hr⟩ := hq
      refine Or.inr (Or.inl ⟨r, ?_, hr.symm⟩)
      rintro rfl
      rw [List.append_nil] at hr
      exact hp (hr ▸ List.prefix_rfl)
    · exact Or.inr (Or.inr ⟨hp, hq⟩)

end Apart

end RecordLog
