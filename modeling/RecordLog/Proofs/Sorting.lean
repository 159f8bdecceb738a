import Mathlib.Order.Lattice
import RecordLog.Query.Insertion

/-!
# Stable sorting by a weak order

A weak order tells which of two elements comes first, or that the two tie.  Sorting
by it puts an element in front of another one if it comes before it, and leaves
elements that tie in the order in which they were given.

* `place_eq` says where an element is placed: behind all elements that it does not
  come before.  The search by halving finds that place because an element that
  comes before a member of a sorted list comes before all later members;
* `pairwise_sortBy` says that sorting refines any relation that the given order of
  the elements respects;
* `sortBy_map` says that sorting depends on comparisons alone, so that elements can
  be sorted with labels attached to them.

The order only has to be a weak order on the elements of the list, not on their
whole type.
-/

namespace RecordLog.Sorting

variable {α β : Type}

/-- A strict order up to ties, on the elements that satisfy `P`.  Where `x` comes before
`z`, no element ties with both of them. -/
structure WeakOrder (P : α → Prop) (before : α → α → Bool) : Prop where
  asymm : ∀ {x y}, P x → P y → before x y → ¬ before y x
  between : ∀ {x y z}, P x → P y → P z → before x z → before x y ∨ before y z

namespace WeakOrder

variable {P : α → Prop} {before : α → α → Bool}

theorem irrefl (h : WeakOrder P before) {x : α} (hx : P x) : ¬ before x x :=
  fun hxx => h.asymm hx hx hxx hxx

theorem not_before_of_mem_singleton (h : WeakOrder P before) {x y : α} (hx : P x)
    (hy : y ∈ [x]) : ¬ before y x := by
  rw [List.mem_singleton.mp hy]
  exact h.irrefl hx

theorem trans (h : WeakOrder P before) {x y z : α} (hx : P x) (hy : P y) (hz : P z)
    (hxy : before x y) (hyz : before y z) : before x z :=
  (h.between hx hz hy hxy).resolve_right (h.asymm hy hz hyz)

/-- Elements that are compared as their images are. -/
theorem comap (h : WeakOrder P before) (f : β → α) {Q : β → Prop} (hQ : ∀ x, Q x → P (f x)) :
    WeakOrder Q fun x y => before (f x) (f y) where
  asymm hx hy := h.asymm (hQ _ hx) (hQ _ hy)
  between hx hy hz := h.between (hQ _ hx) (hQ _ hy) (hQ _ hz)

/-- Elements that are compared by their places in a linear order. -/
theorem of_lt {Place : Type} [LinearOrder Place] (place : α → Place)
    (h : ∀ {x y}, P x → P y → (before x y ↔ place x < place y)) : WeakOrder P before where
  asymm hx hy hxy := by
    rw [h hy hx]
    exact lt_asymm ((h hx hy).mp hxy)
  between {x y z} hx hy hz hxz := by
    rw [h hx hy, h hy hz]
    exact (lt_or_ge (place x) (place y)).imp_right fun hyx => lt_of_le_of_lt hyx ((h hx hz).mp hxz)

end WeakOrder

/-- One element belongs in front of another one: it comes before it, or it does not
come after it and is related to it by `R`. -/
def Ahead (before : α → α → Bool) (R : α → α → Prop) (x y : α) : Prop :=
  before x y ∨ (¬ before y x ∧ R x y)

section Stable

variable {before : α → α → Bool} {R : α → α → Prop}

/-- What is ahead does not come after. -/
theorem Ahead.not_before {P : α → Prop} (horder : WeakOrder P before) {x y : α} (hx : P x)
    (hy : P y) (h : Ahead before R x y) : ¬ before y x := by
  rcases h with hxy | ⟨hyx, _⟩
  · exact horder.asymm hx hy hxy
  · exact hyx

/-! ### Placing one element -/

/-- An element that splits a list into two parts is placed between them.  The parts
are found by halving if all elements that it comes before stand at the end. -/
theorem place_eq (x : α) (fuel : Nat) {ys : List α} (hfuel : ys.length ≤ fuel)
    (hys : ys.Pairwise fun y z => before x y → before x z) :
    (place (m := Id) before x fuel ys).run =
      ys.filter (fun y => !before x y) ++ x :: ys.filter (before x ·) := by
  induction fuel generalizing ys with
  | zero =>
      obtain rfl : ys = [] := List.eq_nil_of_length_eq_zero (by omega)
      rfl
  | succ fuel ih =>
      cases hdrop : ys.drop (ys.length / 2) with
      | nil =>
          have hlength := congrArg List.length hdrop
          rw [List.length_drop, List.length_nil] at hlength
          obtain rfl : ys = [] := List.eq_nil_of_length_eq_zero (by omega)
          exact place_of_drop_nil before x fuel hdrop
      | cons y later =>
          rw [place_of_drop_cons before x fuel hdrop]
          have hlater := congrArg List.length hdrop
          have hfront := List.length_take_le (ys.length / 2) ys
          rw [List.length_drop, List.length_cons] at hlater
          have heq : ys = ys.take (ys.length / 2) ++ y :: later := by
            rw [← hdrop, List.take_append_drop]
          generalize ys.take (ys.length / 2) = front at heq hfront
          rw [heq, List.pairwise_append, List.pairwise_cons] at hys
          obtain ⟨hys, ⟨hy, hyslater⟩, hcross⟩ := hys
          by_cases hxy : before x y
          · have hall : ∀ z ∈ y :: later, before x z :=
              List.forall_mem_cons.mpr ⟨hxy, fun z hz => hy z hz hxy⟩
            have hnone : (y :: later).filter (fun z => !before x z) = [] :=
              List.filter_eq_nil_iff.mpr fun z hz => by simp [hall z hz]
            rw [if_pos hxy, ih (by omega) hys, heq, List.filter_append, List.filter_append,
              hnone, List.filter_eq_self.mpr hall]
            simp
          · have hnone : front.filter (before x ·) = [] :=
              List.filter_eq_nil_iff.mpr fun z hz hxz =>
                hxy (hcross z hz y List.mem_cons_self hxz)
            have hall : ∀ z ∈ front, (!before x z) = true := by
              intro z hz
              simpa using List.filter_eq_nil_iff.mp hnone z hz
            rw [if_neg hxy, ih (by omega) hyslater, heq, List.filter_append, List.filter_append,
              hnone, List.filter_eq_self.mpr hall]
            simp [hxy]

/-- Placing an element that was given after all others keeps the elements in order. -/
theorem pairwise_place {P : α → Prop} (horder : WeakOrder P before) {x : α} {ys : List α}
    (hx : P x) (hP : ∀ y ∈ ys, P y) (hys : ys.Pairwise (Ahead before R))
    (hR : ∀ y ∈ ys, R y x) :
    (place (m := Id) before x ys.length ys).run.Pairwise (Ahead before R) := by
  have hmono : ys.Pairwise fun y z => before x y → before x z := by
    refine hys.imp_of_mem ?_
    intro y z hy hz hyz hxy
    exact (horder.between hx (hP z hz) (hP y hy) hxy).resolve_right
      (hyz.not_before horder (hP y hy) (hP z hz))
  rw [place_eq x _ (Nat.le_refl _) hmono, List.pairwise_append, List.pairwise_cons]
  refine ⟨hys.filter _, ⟨?_, hys.filter _⟩, ?_⟩
  · intro z hz
    exact Or.inl (List.mem_filter.mp hz).2
  · intro y hy z hz
    obtain ⟨hymem, hxy⟩ := List.mem_filter.mp hy
    simp only [Bool.not_eq_true', ← Bool.not_eq_true] at hxy
    rcases List.mem_cons.mp hz with rfl | hz
    · exact Or.inr ⟨hxy, hR y hymem⟩
    · obtain ⟨hzmem, hxz⟩ := List.mem_filter.mp hz
      exact Or.inl ((horder.between hx (hP y hymem) (hP z hzmem) hxz).resolve_left hxy)

/-! ### The first run -/

/-- No element of a rising run comes before an earlier one. -/
theorem pairwise_risingRun {P : α → Prop} (horder : WeakOrder P before) (x : α) (ys : List α)
    (hP : ∀ y ∈ x :: ys, P y) :
    (∀ y ∈ (risingRun (m := Id) before x ys).run.1, ¬ before y x) ∧
      (risingRun (m := Id) before x ys).run.1.Pairwise fun y z => ¬ before z y := by
  have hx : P x := hP x List.mem_cons_self
  have hsingle : (∀ y ∈ [x], ¬ before y x) ∧ [x].Pairwise fun y z => ¬ before z y :=
    ⟨fun _ => horder.not_before_of_mem_singleton hx, List.pairwise_singleton _ x⟩
  induction ys generalizing x with
  | nil => exact hsingle
  | cons y ys ih =>
      rw [risingRun_cons]
      by_cases hyx : before y x
      · rw [if_pos hyx]
        exact hsingle
      · rw [if_neg hyx]
        have hP' : ∀ z ∈ y :: ys, P z := fun z hz => hP z (List.mem_cons_of_mem x hz)
        have hy : P y := hP' y List.mem_cons_self
        obtain ⟨hrun, hpairwise⟩ := ih y hP' hy
          ⟨fun _ => horder.not_before_of_mem_singleton hy, List.pairwise_singleton _ y⟩
        have hnot : ∀ z ∈ (risingRun (m := Id) before y ys).run.1, ¬ before z x := by
          intro z hz hzx
          have hmem : z ∈ y :: ys := by
            rw [← risingRun_append before y ys]
            exact List.mem_append_left _ hz
          exact (horder.between (hP' z hmem) hy hx hzx).elim (hrun z hz) hyx
        exact ⟨List.forall_mem_cons.mpr ⟨horder.irrefl hx, hnot⟩,
          List.pairwise_cons.mpr ⟨hnot, hpairwise⟩⟩

/-- A falling run is a front part of the list in reverse. -/
theorem exists_fallingRun_eq (before : α → α → Bool) (acc : List α) (x : α) (ys : List α) :
    ∃ front, (fallingRun (m := Id) before acc x ys).run.1 = front.reverse ++ acc ∧
      front ++ (fallingRun (m := Id) before acc x ys).run.2 = x :: ys := by
  induction ys generalizing acc x with
  | nil => exact ⟨[x], rfl, rfl⟩
  | cons y ys ih =>
      rw [fallingRun_cons]
      split
      · obtain ⟨front, hrun, hrest⟩ := ih (x :: acc) y
        refine ⟨x :: front, ?_, congrArg (x :: ·) hrest⟩
        rw [hrun, List.reverse_cons, List.append_assoc, List.singleton_append]
      · exact ⟨[x], rfl, rfl⟩

/-- In a falling run, once reversed, each element comes before all later ones. -/
theorem pairwise_fallingRun {P : α → Prop} (horder : WeakOrder P before) (acc : List α) (x : α)
    (ys : List α) (hacc : ∀ y ∈ acc, P y) (hP : ∀ y ∈ x :: ys, P y)
    (h : (x :: acc).Pairwise fun y z => before y z) :
    (fallingRun (m := Id) before acc x ys).run.1.Pairwise fun y z => before y z := by
  induction ys generalizing acc x with
  | nil => exact h
  | cons y ys ih =>
      rw [fallingRun_cons]
      split
      · next hyx =>
          have hx : P x := hP x List.mem_cons_self
          have hP' : ∀ z ∈ y :: ys, P z := fun z hz => hP z (List.mem_cons_of_mem x hz)
          have hy : P y := hP' y List.mem_cons_self
          refine ih (x :: acc) y (List.forall_mem_cons.mpr ⟨hx, hacc⟩) hP'
            (List.pairwise_cons.mpr ⟨List.forall_mem_cons.mpr ⟨hyx, ?_⟩, h⟩)
          intro z hz
          exact horder.trans hy hx (hacc z hz) hyx (List.rel_of_pairwise_cons h hz)
      · exact h

/-- The first run is in order, and the other elements were given after it. -/
theorem pairwise_firstRun {xs : List α} (horder : WeakOrder (· ∈ xs) before)
    (hxs : xs.Pairwise R) :
    (firstRun (m := Id) before xs).run.1.Pairwise (Ahead before R) ∧
      (firstRun (m := Id) before xs).run.2.Pairwise R ∧
      ∀ x ∈ (firstRun (m := Id) before xs).run.1, ∀ y ∈ (firstRun (m := Id) before xs).run.2,
        R x y := by
  match xs with
  | [] => exact ⟨.nil, .nil, nofun⟩
  | [x] => exact ⟨List.pairwise_singleton _ x, .nil, fun _ _ => nofun⟩
  | x :: y :: ys =>
      rw [firstRun_cons]
      split
      · obtain ⟨front, hrun, hrest⟩ := exists_fallingRun_eq before [] x (y :: ys)
        have hfalling := pairwise_fallingRun horder [] x (y :: ys) nofun (fun _ hz => hz)
          (List.pairwise_singleton _ x)
        rw [← hrest, List.pairwise_append] at hxs
        refine ⟨hfalling.imp Or.inl, hxs.2.1, ?_⟩
        intro z hz w hw
        rw [hrun, List.append_nil, List.mem_reverse] at hz
        exact hxs.2.2 z hz w hw
      · obtain ⟨_, hrising⟩ := pairwise_risingRun horder x (y :: ys) (fun _ hz => hz)
        rw [← risingRun_append before x (y :: ys), List.pairwise_append] at hxs
        exact ⟨(hrising.and hxs.1).imp Or.inr, hxs.2⟩

/-! ### Sorting -/

/-- **Stable sorting.**  Elements that are given in an order that respects `R` are
sorted by the weak order, and by `R` where they tie. -/
theorem pairwise_sortBy {xs : List α} (horder : WeakOrder (· ∈ xs) before)
    (hxs : xs.Pairwise R) : (sortBy before xs).Pairwise (Ahead before R) := by
  obtain ⟨hrun, hrest, hcross⟩ := pairwise_firstRun horder hxs
  have hmem : ∀ x ∈ (firstRun (m := Id) before xs).run.1 ++ (firstRun (m := Id) before xs).run.2,
      x ∈ xs := fun x hx => (firstRun_perm before xs).mem_iff.mp hx
  rw [sortBy_eq]
  generalize (firstRun (m := Id) before xs).run.1 = run at *
  generalize (firstRun (m := Id) before xs).run.2 = rest at *
  -- every element that is still to come was given after all that are placed
  induction rest generalizing run with
  | nil => exact hrun
  | cons x rest ih =>
      obtain ⟨hx, hrest⟩ := List.pairwise_cons.mp hrest
      have hperm := place_perm before x run.length run
      refine ih _ ?_ hrest ?_ ?_
      · exact pairwise_place horder (hmem x (by simp)) (fun y hy => hmem y (by simp [hy])) hrun
          fun y hy => hcross y hy x List.mem_cons_self
      · intro y hy z hz
        rcases List.mem_cons.mp (hperm.mem_iff.mp hy) with rfl | hy
        · exact hx z hz
        · exact hcross y hy z (List.mem_cons_of_mem x hz)
      · intro y hy
        have hmiddle := (hperm.append_right rest).mem_iff.mp hy
        exact hmem y (by simpa [or_left_comm] using hmiddle)

end Stable

/-! ### Labels -/

section Labels

variable (before : α → α → Bool) (f : β → α)

theorem risingRun_map (x : β) (ys : List β) :
    (risingRun (m := Id) before (f x) (ys.map f)).run =
      Prod.map (List.map f) (List.map f)
        (risingRun (m := Id) (fun x y => before (f x) (f y)) x ys).run := by
  induction ys generalizing x with
  | nil => rfl
  | cons y ys ih =>
      rw [List.map_cons, risingRun_cons, risingRun_cons, ih]
      split <;> rfl

theorem fallingRun_map (acc : List β) (x : β) (ys : List β) :
    (fallingRun (m := Id) before (acc.map f) (f x) (ys.map f)).run =
      Prod.map (List.map f) (List.map f)
        (fallingRun (m := Id) (fun x y => before (f x) (f y)) acc x ys).run := by
  induction ys generalizing acc x with
  | nil => rfl
  | cons y ys ih =>
      rw [List.map_cons, fallingRun_cons, fallingRun_cons, ← List.map_cons, ih]
      split <;> rfl

theorem firstRun_map (xs : List β) :
    (firstRun (m := Id) before (xs.map f)).run =
      Prod.map (List.map f) (List.map f)
        (firstRun (m := Id) (fun x y => before (f x) (f y)) xs).run := by
  match xs with
  | [] => rfl
  | [x] => rfl
  | x :: y :: ys =>
      have hfalling := fallingRun_map before f [] x (y :: ys)
      have hrising := risingRun_map before f x (y :: ys)
      rw [List.map_cons, List.map_cons, firstRun_cons, firstRun_cons]
      split
      · exact hfalling
      · exact hrising

/-- An element is placed alike under a map that the comparison looks through. -/
theorem place_map (x : β) (fuel : Nat) (ys : List β) :
    (place (m := Id) before (f x) fuel (ys.map f)).run =
      (place (m := Id) (fun x y => before (f x) (f y)) x fuel ys).run.map f := by
  induction fuel generalizing ys with
  | zero => rfl
  | succ fuel ih =>
      have hmap : (ys.map f).drop ((ys.map f).length / 2) = (ys.drop (ys.length / 2)).map f := by
        rw [List.length_map, List.map_drop]
      cases hdrop : ys.drop (ys.length / 2) with
      | nil =>
          rw [hdrop, List.map_nil] at hmap
          rw [place_of_drop_nil _ _ _ hmap, place_of_drop_nil _ _ _ hdrop, List.map_cons]
      | cons y later =>
          rw [hdrop, List.map_cons] at hmap
          rw [place_of_drop_cons _ _ _ hmap, place_of_drop_cons _ _ _ hdrop, List.length_map,
            ← List.map_take, ih, ih]
          split <;> simp

/-- Sorting looks at nothing but comparisons. -/
theorem sortBy_map (xs : List β) :
    sortBy before (xs.map f) = (sortBy (fun x y => before (f x) (f y)) xs).map f := by
  rw [sortBy_eq, sortBy_eq, firstRun_map]
  generalize (firstRun (m := Id) (fun x y => before (f x) (f y)) xs).run = parts
  obtain ⟨run, rest⟩ := parts
  simp only [Prod.map]
  induction rest generalizing run with
  | nil => rfl
  | cons x rest ih =>
      rw [List.map_cons, List.foldl_cons, List.foldl_cons, List.length_map, place_map]
      exact ih _

end Labels

end RecordLog.Sorting
