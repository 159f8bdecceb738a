import Mathlib.Data.List.Forall2
import RecordLog.Json

/-!
# Positions inside values

A position is a way into a value: the steps to items of arrays and to members of objects, from
the outside in.  `Json.part?` says what stands at a position.  Two values correspond if at every
position both have nothing, or an array each, or an object each, or leaves that are related in a
given manner (`Json.Corresponds`).

Whether values correspond is decided step by step (`corresponds_iff`): arrays correspond item by
item, objects key by key, and leaves if they are related.  The relation inherits reflexivity,
symmetry and transitivity from that of the leaves, since it is said position by position.
-/

namespace RecordLog.Json

/-- A step into a value. -/
inductive Step where
  /-- To an item of an array, counted from zero. -/
  | item (index : Nat)
  /-- To the value of a member of an object. -/
  | member (key : Text)

/-- What a step leads to. -/
def step? : Json → Step → Option Json
  | arr items, .item index => items[index]?
  | obj members, .member key => Members.get? members key
  | _, _ => none

/-- What stands at a position. -/
def part? : Json → List Step → Option Json
  | v, [] => some v
  | v, s :: position => (v.step? s).bind fun w => w.part? position

/-- Whether a value is neither an array nor an object. -/
def isLeaf : Json → Bool
  | arr _ => false
  | obj _ => false
  | _ => true

/-- Two values that face each other at a position agree: they are two arrays, or two objects, or
two related leaves. -/
inductive Faces (R : Json → Json → Prop) : Json → Json → Prop
  | arrays (vs ws : List Json) : Faces R (arr vs) (arr ws)
  | objects (ms ns : Members) : Faces R (obj ms) (obj ns)
  | leaves {v w : Json} (hv : v.isLeaf) (hw : w.isLeaf) (h : R v w) : Faces R v w

/-- Two values correspond: at every position both have nothing, or what they have agrees. -/
def Corresponds (R : Json → Json → Prop) (v w : Json) : Prop :=
  ∀ position, Option.Rel (Faces R) (v.part? position) (w.part? position)

section

variable {R S : Json → Json → Prop} {u v w : Json}

/-- No step leads into a leaf. -/
theorem step?_of_isLeaf (h : v.isLeaf) (s : Step) : v.step? s = none := by
  cases v with
  | arr | obj => cases h
  | _ => rfl

/-! ### Step by step -/

/-- Related options lead to related results, if their values do. -/
theorem rel_bind {α β γ δ : Type} {P : α → β → Prop} {Q : γ → δ → Prop} {x : Option α}
    {y : Option β} {f : α → Option γ} {g : β → Option δ} (h : Option.Rel P x y)
    (hfg : ∀ a b, P a b → Option.Rel Q (f a) (g b)) : Option.Rel Q (x.bind f) (y.bind g) := by
  cases h with
  | some hab => exact hfg _ _ hab
  | none => exact .none

/-- Values correspond if they agree on the outside, and what any step leads to corresponds. -/
theorem corresponds_iff :
    Corresponds R v w ↔ Faces R v w ∧ ∀ s, Option.Rel (Corresponds R) (v.step? s) (w.step? s) := by
  constructor
  · intro h
    refine ⟨Option.rel_some_some.mp (h []), fun s => ?_⟩
    have hstep := fun position => h (s :: position)
    simp only [part?] at hstep
    cases hv : v.step? s with
    | none =>
        cases hw : w.step? s with
        | none => exact .none
        | some b =>
            have hb := hstep []
            rw [hv, hw] at hb
            cases hb
    | some a =>
        cases hw : w.step? s with
        | none =>
            have ha := hstep []
            rw [hv, hw] at ha
            cases ha
        | some b =>
            refine .some fun position => ?_
            have hab := hstep position
            rwa [hv, hw] at hab
  · rintro ⟨hfaces, hsteps⟩ position
    cases position with
    | nil => exact .some hfaces
    | cons s position => exact rel_bind (hsteps s) fun a b hab => hab position

/-- Two lists are related item by item exactly if they are at each index. -/
theorem forall₂_iff_getElem? {α β : Type} {P : α → β → Prop} {xs : List α} {ys : List β} :
    List.Forall₂ P xs ys ↔ ∀ i : Nat, Option.Rel P xs[i]? ys[i]? := by
  constructor
  · intro h i
    induction h generalizing i with
    | nil => exact .none
    | cons hxy _ ih =>
        cases i with
        | zero => exact .some hxy
        | succ i => exact ih i
  · intro h
    induction xs generalizing ys with
    | nil =>
        cases ys with
        | nil => exact .nil
        | cons y ys => cases h 0
    | cons x xs ih =>
        cases ys with
        | nil => cases h 0
        | cons y ys => exact .cons (Option.rel_some_some.mp (h 0)) (ih fun i => h (i + 1))

/-- Arrays correspond item by item. -/
theorem corresponds_arr {vs ws : List Json} :
    Corresponds R (arr vs) (arr ws) ↔ List.Forall₂ (Corresponds R) vs ws := by
  rw [corresponds_iff, forall₂_iff_getElem?, and_iff_right (Faces.arrays vs ws)]
  constructor
  · exact fun h i => h (.item i)
  · rintro h (i | key)
    · exact h i
    · exact .none

/-- Objects correspond key by key. -/
theorem corresponds_obj {ms ns : Members} :
    Corresponds R (obj ms) (obj ns) ↔
      ∀ key, Option.Rel (Corresponds R) (Members.get? ms key) (Members.get? ns key) := by
  rw [corresponds_iff, and_iff_right (Faces.objects ms ns)]
  constructor
  · exact fun h key => h (.member key)
  · rintro h (i | key)
    · exact .none
    · exact h key

/-- A leaf corresponds to the leaves that are related to it. -/
theorem corresponds_of_isLeaf (hv : v.isLeaf) : Corresponds R v w ↔ w.isLeaf ∧ R v w := by
  rw [corresponds_iff]
  constructor
  · rintro ⟨hfaces, -⟩
    cases hfaces with
    | arrays | objects => cases hv
    | leaves _ hw h => exact ⟨hw, h⟩
  · rintro ⟨hw, h⟩
    refine ⟨.leaves hv hw h, fun s => ?_⟩
    rw [step?_of_isLeaf hv, step?_of_isLeaf hw]
    exact .none

/-- Of two values that correspond both are leaves or none is. -/
theorem Corresponds.isLeaf_eq (h : Corresponds R v w) : v.isLeaf = w.isLeaf := by
  cases (corresponds_iff.mp h).1 with
  | arrays | objects => rfl
  | leaves hv hw _ => rw [hv, hw]

/-! ### Relations of leaves -/

theorem Faces.refl (hR : ∀ v, v.isLeaf → R v v) (v : Json) : Faces R v v := by
  cases v with
  | arr vs => exact .arrays vs vs
  | obj ms => exact .objects ms ms
  | _ => exact .leaves rfl rfl (hR _ rfl)

theorem Faces.symm (hR : ∀ {v w}, R v w → R w v) (h : Faces R v w) : Faces R w v := by
  cases h with
  | arrays vs ws => exact .arrays ws vs
  | objects ms ns => exact .objects ns ms
  | leaves hv hw h => exact .leaves hw hv (hR h)

theorem Faces.trans (hR : ∀ {u v w}, R u v → R v w → R u w) (huv : Faces R u v)
    (hvw : Faces R v w) : Faces R u w := by
  cases huv with
  | arrays us vs =>
      cases hvw with
      | arrays _ ws => exact .arrays us ws
      | leaves hv => cases hv
  | objects ls ms =>
      cases hvw with
      | objects _ ns => exact .objects ls ns
      | leaves hv => cases hv
  | leaves hu hv h =>
      cases hvw with
      | arrays | objects => cases hv
      | leaves _ hw h' => exact .leaves hu hw (hR h h')

namespace Corresponds

theorem refl (hR : ∀ v, v.isLeaf → R v v) (v : Json) : Corresponds R v v := by
  intro position
  cases v.part? position with
  | none => exact .none
  | some a => exact .some (.refl hR a)

theorem symm (hR : ∀ {v w}, R v w → R w v) (h : Corresponds R v w) : Corresponds R w v := by
  intro position
  have hposition := h position
  revert hposition
  cases v.part? position <;> cases w.part? position <;> rintro ⟨⟩
  · exact .none
  · next hab => exact .some (hab.symm hR)

theorem trans (hR : ∀ {u v w}, R u v → R v w → R u w) (huv : Corresponds R u v)
    (hvw : Corresponds R v w) : Corresponds R u w := by
  intro position
  have hleft := huv position
  have hright := hvw position
  revert hleft hright
  cases u.part? position <;> cases v.part? position <;> cases w.part? position <;>
    rintro ⟨⟩ ⟨⟩
  · exact .none
  · next hab hbc => exact .some (hab.trans hR hbc)

/-- Correspondence is kept by a weaker relation of leaves. -/
theorem imp (hR : ∀ {v w}, v.isLeaf → w.isLeaf → R v w → S v w) (h : Corresponds R v w) :
    Corresponds S v w := by
  intro position
  have hposition := h position
  revert hposition
  cases v.part? position <;> cases w.part? position <;> rintro ⟨⟩
  · exact .none
  · next hab =>
      cases hab with
      | arrays vs ws => exact .some (.arrays vs ws)
      | objects ms ns => exact .some (.objects ms ns)
      | leaves hv hw h => exact .some (.leaves hv hw (hR hv hw h))

end Corresponds

end

end RecordLog.Json
