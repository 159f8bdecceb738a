import RecordLog.Proofs.Json.Equality
import RecordLog.Proofs.Text.Order

/-!
# The order of values

`Before` says which value comes before which one: numbers by value, where a boolean counts as a
number, texts by their code points, and arrays as their first items that differ, or the shorter
one if none do.  It is what `Json.precedes` decides, and `Json.follows` from the other side.

* Values that come before one another are not the same (`Before.not_same`), and values that are
  the same have the same ones before and behind them (`Before.congr`); so the order is strict
  (`Before.irrefl`, `Before.trans`);
* `Incomparable` says which values have no order.  Of two others that are not the same, one
  comes before the other (`placed`).
-/

namespace RecordLog.Json

/-- The kinds of values that have an order. -/
inductive Kind where
  | number
  | text
  | array

/-- The ordered kind of a value. -/
def kind? : Json → Option Kind
  | bool _ | int _ | float _ => some .number
  | str _ => some .text
  | arr _ => some .array
  | _ => none

/-- One value comes before the other. -/
inductive Before : Json → Json → Prop
  | numbers {v w : Json} {p q : Quantity} (hv : v.quantity? = some p) (hw : w.quantity? = some q)
      (h : p.less q = true) : Before v w
  | texts {s t : Text} (h : Text.precedes s t = true) : Before (str s) (str t)
  | shorter (w : Json) (ws : List Json) : Before (arr []) (arr (w :: ws))
  | item {v w : Json} {vs ws : List Json} (hne : v.same w = false) (h : Before v w) :
      Before (arr (v :: vs)) (arr (w :: ws))
  | later {v w : Json} {vs ws : List Json} (heq : v.same w = true)
      (h : Before (arr vs) (arr ws)) : Before (arr (v :: vs)) (arr (w :: ws))

/-- Two values have no order: one of two numbers is NaN, or they are not of one ordered kind, or
the first items that differ in two arrays have no order. -/
inductive Incomparable : Json → Json → Prop
  | nan {v w : Json} {p q : Quantity} (hv : v.quantity? = some p) (hw : w.quantity? = some q)
      (hnan : p = .nan ∨ q = .nan) : Incomparable v w
  | kinds {v w : Json} (h : v.kind? = none ∨ v.kind? ≠ w.kind?) : Incomparable v w
  | item {v w : Json} {vs ws : List Json} (hne : v.same w = false) (h : Incomparable v w) :
      Incomparable (arr (v :: vs)) (arr (w :: ws))
  | later {v w : Json} {vs ws : List Json} (heq : v.same w = true)
      (h : Incomparable (arr vs) (arr ws)) : Incomparable (arr (v :: vs)) (arr (w :: ws))

section

variable {u v w v' w' : Json}

/-- A value with a quantity is of the kind of numbers. -/
theorem kind?_of_quantity {q : Quantity} (h : v.quantity? = some q) : v.kind? = some .number := by
  cases v with
  | bool | int | float => rfl
  | _ => cases h

/-! ### The order that is decided -/

theorem before_of_leafPrecedes? (h : leafPrecedes? v w = some true) : Before v w := by
  unfold leafPrecedes? at h
  split at h
  · exact .texts (Option.some.inj h)
  · split at h
    · next hv hw => exact .numbers hv hw (Option.some.inj h)
    · cases h

mutual

/-- A value that precedes another comes before it. -/
theorem before_of_precedes? : ∀ {v w : Json}, v.precedes? w = some true → Before v w
  | arr vs, w, h => by
      cases w with
      | arr ws => exact before_of_itemsPrecede? h
      | _ => exact before_of_leafPrecedes? h
  | obj _, _, h => before_of_leafPrecedes? h
  | null, _, h => before_of_leafPrecedes? h
  | bool _, _, h => before_of_leafPrecedes? h
  | int _, _, h => before_of_leafPrecedes? h
  | float _, _, h => before_of_leafPrecedes? h
  | str _, _, h => before_of_leafPrecedes? h

/-- Items that precede others come before them as arrays. -/
theorem before_of_itemsPrecede? : ∀ {vs ws : List Json}, itemsPrecede? vs ws = some true →
    Before (arr vs) (arr ws)
  | [], [], h => nomatch Option.some.inj h
  | _ :: _, [], h => nomatch Option.some.inj h
  | [], w :: ws, _ => .shorter w ws
  | v :: vs, w :: ws, h => by
      rw [itemsPrecede?] at h
      cases hsame : v.same w with
      | true =>
          rw [if_pos hsame] at h
          exact .later hsame (before_of_itemsPrecede? h)
      | false =>
          rw [if_neg (Bool.eq_false_iff.mp hsame)] at h
          exact .item hsame (before_of_precedes? h)

end

/-- A value that comes before another precedes it. -/
theorem Before.precedes? (h : Before v w) : v.precedes? w = some true := by
  induction h with
  | numbers hv hw hless => rw [precedes?_of_quantity hv hw, hless]
  | texts hst => exact congrArg some hst
  | shorter => rfl
  | item hne _ ih => rwa [Json.precedes?, itemsPrecede?, if_neg (Bool.eq_false_iff.mp hne)]
  | later heq _ ih => rwa [Json.precedes?, itemsPrecede?, if_pos heq]

/-- The order that is decided is the order of values. -/
theorem precedes_iff : v.precedes w = true ↔ Before v w := by
  have hsome : v.precedes w = true ↔ v.precedes? w = some true := by
    rw [precedes]
    cases v.precedes? w <;> simp
  rw [hsome]
  exact ⟨before_of_precedes?, Before.precedes?⟩

mutual

/-- To follow is to be preceded. -/
theorem follows?_eq : ∀ {v w : Json}, WellFormed v → WellFormed w → v.follows? w = w.precedes? v
  | arr vs, w, hv, hw => by
      cases w with
      | arr ws => exact itemsFollow?_eq hv hw
      | _ => rfl
  | obj _, w, _, _ => by cases w <;> rfl
  | null, w, _, _ => by cases w <;> rfl
  | bool _, w, _, _ => by cases w <;> rfl
  | int _, w, _, _ => by cases w <;> rfl
  | float _, w, _, _ => by cases w <;> rfl
  | str _, w, _, _ => by cases w <;> rfl

theorem itemsFollow?_eq : ∀ {vs ws : List Json}, WellFormedItems vs → WellFormedItems ws →
    itemsFollow? vs ws = itemsPrecede? ws vs
  | [], [], _, _ => rfl
  | [], _ :: _, _, _ => rfl
  | _ :: _, [], _, _ => rfl
  | _ :: _, _ :: _, hv, hw => by
      rw [itemsFollow?, itemsPrecede?, same_comm hv.1 hw.1, follows?_eq hv.1 hw.1,
        itemsFollow?_eq hv.2 hw.2]

end

/-- From the other side the order is the same one. -/
theorem follows_eq (hv : WellFormed v) (hw : WellFormed w) : v.follows w = w.precedes v := by
  rw [follows, precedes, follows?_eq hv hw]

/-! ### Values that are the same -/

/-- Only a text itself is the same as it. -/
theorem eq_of_same_str {t : Text} (h : (str t).same w = true) : w = str t := by
  cases w <;> simp_all [same, sameLeaf, quantity?]

/-- Only the empty array is the same as it. -/
theorem eq_of_same_nil (h : (arr []).same w = true) : w = arr [] := by
  cases w with
  | arr ws =>
      cases ws with
      | nil => rfl
      | cons => cases h
  | _ => cases h

/-- An array that is the same as a non-empty one has the same first item and the same others. -/
theorem exists_of_same_cons {vs : List Json} (h : (arr (v :: vs)).same w = true) :
    ∃ v' vs', w = arr (v' :: vs') ∧ v.same v' = true ∧ (arr vs).same (arr vs') = true := by
  cases w with
  | arr ws =>
      cases ws with
      | nil => cases h
      | cons v' vs' => exact ⟨v', vs', rfl, Bool.and_eq_true_iff.mp h⟩
  | _ => cases h

/-- The first of two values that come before one another is not the same as the second. -/
theorem Before.not_same (h : Before v w) : v.same w = false := by
  induction h with
  | numbers hv hw hless =>
      rw [same_of_quantity hv hw, decide_eq_false_iff_not]
      rintro rfl
      rw [Quantity.less_irrefl] at hless
      cases hless
  | texts hst =>
      refine decide_eq_false ?_
      rintro rfl
      rw [Text.precedes_irrefl] at hst
      cases hst
  | shorter => rfl
  | item hne => rw [same, sameItems, hne, Bool.false_and]
  | later heq _ ih => rw [same, sameItems, heq, Bool.true_and, ← same, ih]

/-- Values that are the same come before and behind the same values. -/
theorem Before.congr (h : Before v w) (hv : WellFormed v) (hw : WellFormed w)
    (hv' : WellFormed v') (hw' : WellFormed w') (hvv : v.same v' = true)
    (hww : w.same w' = true) : Before v' w' := by
  induction h generalizing v' w' with
  | numbers hp hq hless =>
      exact .numbers (quantity?_eq_of_same hvv ▸ hp) (quantity?_eq_of_same hww ▸ hq) hless
  | texts hst =>
      obtain rfl := eq_of_same_str hvv
      obtain rfl := eq_of_same_str hww
      exact .texts hst
  | shorter w ws =>
      obtain rfl := eq_of_same_nil hvv
      obtain ⟨w', ws', rfl, -, -⟩ := exists_of_same_cons hww
      exact .shorter w' ws'
  | item hne _ ih =>
      obtain ⟨v', vs', rfl, hitem, -⟩ := exists_of_same_cons hvv
      obtain ⟨w', ws', rfl, hitem', -⟩ := exists_of_same_cons hww
      refine .item ?_ (ih hv.1 hw.1 hv'.1 hw'.1 hitem hitem')
      rw [← same_congr hv.1 hw.1 hv'.1 hw'.1 hitem hitem', hne]
  | later heq _ ih =>
      obtain ⟨v', vs', rfl, hitem, hlater⟩ := exists_of_same_cons hvv
      obtain ⟨w', ws', rfl, hitem', hlater'⟩ := exists_of_same_cons hww
      refine .later ?_ (ih hv.2 hw.2 hv'.2 hw'.2 hlater hlater')
      rw [← same_congr hv.1 hw.1 hv'.1 hw'.1 hitem hitem', heq]

/-! ### A strict order -/

theorem Before.irrefl (hv : WellFormed v) : ¬ Before v v := fun h =>
  Bool.false_ne_true (h.not_same.symm.trans (same_refl hv))

theorem Before.trans (huv : Before u v) (hvw : Before v w) (hu : WellFormed u)
    (hv : WellFormed v) (hw : WellFormed w) : Before u w := by
  induction huv generalizing w with
  | numbers hp hq hless =>
      cases hvw with
      | numbers hq' hr hless' =>
          obtain rfl := Option.some.inj (hq.symm.trans hq')
          exact .numbers hp hr (Quantity.less_trans hless hless')
      | texts | shorter | item | later => cases hq
  | texts hst =>
      cases hvw with
      | numbers ht => cases ht
      | texts htu => exact .texts (Text.precedes_trans hst htu)
  | shorter =>
      cases hvw with
      | numbers hq => cases hq
      | item | later => exact .shorter _ _
  | @item u v us vs hne huv ih =>
      cases hvw with
      | numbers hq => cases hq
      | item _ hvw =>
          have huw : Before u _ := ih hvw hu.1 hv.1 hw.1
          exact .item huw.not_same huw
      | later heq =>
          have huw : Before u _ := huv.congr hu.1 hv.1 hu.1 hw.1 (same_refl hu.1) heq
          exact .item huw.not_same huw
  | @later u v us vs heq huv ih =>
      cases hvw with
      | numbers hq => cases hq
      | item _ hvw =>
          have hvu : v.same u = true := same_comm hu.1 hv.1 ▸ heq
          have huw : Before u _ := hvw.congr hv.1 hw.1 hu.1 hw.1 hvu (same_refl hw.1)
          exact .item huw.not_same huw
      | later heq' hvw =>
          exact .later (same_trans hu.1 hv.1 hw.1 heq heq') (ih hvw hu.2 hv.2 hw.2)

theorem Before.asymm (h : Before v w) (hv : WellFormed v) (hw : WellFormed w) : ¬ Before w v :=
  fun h' => Before.irrefl hv (h.trans h' hv hw hv)

/-! ### Values without an order -/

theorem Incomparable.symm (h : Incomparable v w) (hv : WellFormed v) (hw : WellFormed w) :
    Incomparable w v := by
  induction h with
  | nan hp hq hnan => exact .nan hq hp hnan.symm
  | @kinds v w h =>
      refine .kinds ?_
      by_cases hkinds : v.kind? = w.kind?
      · exact .inl (hkinds ▸ h.resolve_right fun hne => hne hkinds)
      · exact .inr (Ne.symm hkinds)
  | item hne _ ih => exact .item (same_comm hv.1 hw.1 ▸ hne) (ih hv.1 hw.1)
  | later heq _ ih => exact .later (same_comm hv.1 hw.1 ▸ heq) (ih hv.2 hw.2)

/-- Values with an order are of one ordered kind. -/
theorem Before.kind? (h : Before v w) : v.kind? ≠ none ∧ v.kind? = w.kind? := by
  cases h with
  | numbers hv hw => exact ⟨by rw [kind?_of_quantity hv]; nofun,
      (kind?_of_quantity hv).trans (kind?_of_quantity hw).symm⟩
  | _ => exact ⟨nofun, rfl⟩

/-- Of two values without an order none comes before the other. -/
theorem Incomparable.not_before (h : Incomparable v w) : ¬ Before v w := by
  intro hbefore
  induction h with
  | nan hp hq hnan =>
      cases hbefore with
      | numbers hp' hq' hless =>
          obtain rfl := Option.some.inj (hp.symm.trans hp')
          obtain rfl := Option.some.inj (hq.symm.trans hq')
          rcases hnan with rfl | rfl
          · cases hless
          · rw [Quantity.less_nan] at hless
            cases hless
      | texts | shorter | item | later => cases hp
  | kinds h =>
      obtain ⟨hsome, heq⟩ := hbefore.kind?
      exact h.elim hsome fun hne => hne heq
  | item hne _ ih =>
      cases hbefore with
      | numbers hp => cases hp
      | item _ hbefore => exact ih hbefore
      | later heq => exact Bool.false_ne_true (hne.symm.trans heq)
  | later heq _ ih =>
      cases hbefore with
      | numbers hp => cases hp
      | item hne => exact Bool.false_ne_true (hne.symm.trans heq)
      | later _ hbefore => exact ih hbefore

/-- Two values are the same, or one of them comes before the other, or they have no order. -/
def Placed (v w : Json) : Prop :=
  v.same w = true ∨ Before v w ∨ Before w v ∨ Incomparable v w

theorem placed_of_quantity {p q : Quantity} (hv : v.quantity? = some p)
    (hw : w.quantity? = some q) : Placed v w := by
  by_cases hpq : p = q
  · exact .inl ((same_of_quantity hv hw).trans (decide_eq_true hpq))
  · by_cases hnan : p = .nan ∨ q = .nan
    · exact .inr (.inr (.inr (.nan hv hw hnan)))
    · obtain ⟨hp, hq⟩ := not_or.mp hnan
      rcases Quantity.less_or_less hp hq hpq with hless | hless
      · exact .inr (.inl (.numbers hv hw hless))
      · exact .inr (.inr (.inl (.numbers hw hv hless)))

/-- A number is placed with any value. -/
theorem placed_of_number {q : Quantity} (hv : v.quantity? = some q) (w : Json) : Placed v w := by
  cases hw : w.quantity? with
  | some p => exact placed_of_quantity hv hw
  | none =>
      refine .inr (.inr (.inr (.kinds (.inr ?_))))
      rw [kind?_of_quantity hv]
      cases w with
      | bool | int | float => cases hw
      | _ => nofun

theorem placed_of_text (s t : Text) : Placed (str s) (str t) := by
  by_cases hst : s = t
  · exact .inl (decide_eq_true hst)
  · rcases Text.precedes_or_precedes hst with hprecedes | hprecedes
    · exact .inr (.inl (.texts hprecedes))
    · exact .inr (.inr (.inl (.texts hprecedes)))

/-- Values of different kinds, or without one, are placed. -/
theorem placed_of_kind?_ne (h : v.kind? = none ∨ v.kind? ≠ w.kind?) : Placed v w :=
  .inr (.inr (.inr (.kinds h)))

/-- The first items decide, or the others if the first ones are the same. -/
theorem placed_cons {vs ws : List Json} (hv : WellFormed v) (hw : WellFormed w)
    (hitem : Placed v w) (hlater : Placed (arr vs) (arr ws)) :
    Placed (arr (v :: vs)) (arr (w :: ws)) := by
  by_cases heq : v.same w = true
  · have heq' : w.same v = true := same_comm hv hw ▸ heq
    rcases hlater with hsame | hbefore | hbehind | hincomparable
    · exact .inl (Bool.and_eq_true_iff.mpr ⟨heq, hsame⟩)
    · exact .inr (.inl (.later heq hbefore))
    · exact .inr (.inr (.inl (.later heq' hbehind)))
    · exact .inr (.inr (.inr (.later heq hincomparable)))
  · rcases hitem with hsame | hbefore | hbehind | hincomparable
    · exact absurd hsame heq
    · exact .inr (.inl (.item hbefore.not_same hbefore))
    · exact .inr (.inr (.inl (.item hbehind.not_same hbehind)))
    · exact .inr (.inr (.inr (.item (Bool.eq_false_iff.mpr heq) hincomparable)))

mutual

/-- **Of two values that have an order and are not the same, one comes before the other.** -/
theorem placed : ∀ {v w : Json}, WellFormed v → WellFormed w → Placed v w
  | arr vs, w, hv, hw => by
      cases w with
      | arr ws => exact placed_items hv hw
      | _ => exact placed_of_kind?_ne (.inr nofun)
  | str s, w, _, _ => by
      cases w with
      | str t => exact placed_of_text s t
      | _ => exact placed_of_kind?_ne (.inr nofun)
  | null, _, _, _ => placed_of_kind?_ne (.inl rfl)
  | obj _, _, _, _ => placed_of_kind?_ne (.inl rfl)
  | bool _, w, _, _ => placed_of_number rfl w
  | int _, w, _, _ => placed_of_number rfl w
  | float _, w, _, _ => placed_of_number rfl w

/-- Two arrays are placed, item by item. -/
theorem placed_items : ∀ {vs ws : List Json}, WellFormedItems vs → WellFormedItems ws →
    Placed (arr vs) (arr ws)
  | [], [], _, _ => .inl rfl
  | [], w :: ws, _, _ => .inr (.inl (.shorter w ws))
  | v :: vs, [], _, _ => .inr (.inr (.inl (.shorter v vs)))
  | _ :: _, _ :: _, hv, hw => placed_cons hv.1 hw.1 (placed hv.1 hw.1) (placed_items hv.2 hw.2)

end

/-- Neither of two values comes before the other if they are the same or have no order, and only
then. -/
theorem not_before_iff (hv : WellFormed v) (hw : WellFormed w) :
    (¬ Before v w ∧ ¬ Before w v) ↔ v.same w = true ∨ Incomparable v w := by
  constructor
  · rintro ⟨hbefore, hbehind⟩
    rcases placed hv hw with hsame | h | h | hincomparable
    · exact .inl hsame
    · exact absurd h hbefore
    · exact absurd h hbehind
    · exact .inr hincomparable
  · rintro (hsame | hincomparable)
    · have hsame' : w.same v = true := same_comm hv hw ▸ hsame
      exact ⟨fun h => Bool.false_ne_true (h.not_same.symm.trans hsame),
        fun h => Bool.false_ne_true (h.not_same.symm.trans hsame')⟩
    · exact ⟨hincomparable.not_before, (hincomparable.symm hv hw).not_before⟩

end

end RecordLog.Json
