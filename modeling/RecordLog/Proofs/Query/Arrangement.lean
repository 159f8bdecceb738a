import Mathlib.Data.List.Nodup
import Mathlib.Data.Prod.Lex
import RecordLog.Query.Order
import RecordLog.Proofs.Json.Sameness
import RecordLog.Proofs.Sorting
import RecordLog.Proofs.Text.Order

/-!
# The arrangement of sorted records

Records are sorted in passes, one for each key, from the last key to the first, and
a descending pass sorts the list from its end.  What comes out is said by one
comparison: the first key on which two records differ decides, and records that tie
on all keys keep their order.

* A *level* is a rank written in a linear order: the tier, then a number, then a
  text.  `Rank.before_iff` and `Rank.ties_iff` say that ranks are compared as their
  levels are, with the one exception of NaN, which has no place among numbers;
* `pairwise_pass` is what one pass does to records with their positions, and
  `pairwise_passes` what all of them do;
* `sortByKeys_arranged` says that sorting gives the one arrangement in which
  records stand as the comparison says.
-/

namespace RecordLog

/-! ### Levels -/

/-- The place of a rank: its tier, the number and the text that decide within it. -/
abbrev Level := ℕ ×ₗ (ℕ ×ₗ ℤ) ×ₗ List ℕ

/-- The place of a quantity among the others; NaN is put behind them. -/
def Quantity.level : Quantity → ℕ ×ₗ ℤ
  | below => toLex (0, 0)
  | units n => toLex (1, n)
  | above => toLex (2, 0)
  | nan => toLex (3, 0)

/-- Different quantities have different places. -/
theorem Quantity.level_injective : Function.Injective level := by
  intro p q h
  cases p <;> cases q <;> simp_all [level]

/-- Quantities other than NaN are compared as their places are. -/
theorem Quantity.less_iff {p q : Quantity} (hp : p ≠ nan) (hq : q ≠ nan) :
    p.less q ↔ p.level < q.level := by
  cases p <;> cases q <;> simp_all [less, level, Prod.Lex.toLex_lt_toLex]

namespace Rank

/-- Two ranks are the same: they are of one tier, and the same within it. -/
def Ties (p q : Rank) : Prop :=
  p.tier = q.tier ∧ p.value.same q.value

/-- The level of a rank. -/
def level (p : Rank) : Level :=
  let text := match p.value with
    | .str t => t.points
    | _ => []
  toLex (p.tier, toLex ((p.value.quantity?.map Quantity.level).getD (toLex (0, 0)), text))

/-- The level of a number is its tier and the place of its quantity. -/
theorem level_of_quantity {tier : ℕ} {v : Json} {q : Quantity} (h : v.quantity? = some q) :
    level ⟨tier, v⟩ = toLex (tier, toLex (q.level, [])) := by
  cases v <;> simp_all [level, Json.quantity?]

/-- The level of a text is its tier and its code points. -/
theorem level_of_text (tier : ℕ) (t : Text) :
    level ⟨tier, .str t⟩ = toLex (tier, toLex (toLex (0, 0), t.points)) :=
  rfl

/-! ### Ranks in the order of levels -/

/-- The tiers of texts and of written forms. -/
def IsTextual (tier : ℕ) : Prop :=
  tier = 2 ∨ tier = 4

/-- The tier tells whether a number or a text decides within it. -/
theorem ofJson_cases (v : Json) :
    (∃ tier w q, ofJson v = ⟨tier, w⟩ ∧ ¬ IsTextual tier ∧ w.quantity? = some q ∧
      (v ≠ .float .nan → q ≠ .nan)) ∨
    ∃ tier t, ofJson v = ⟨tier, .str t⟩ ∧ IsTextual tier := by
  cases v with
  | null => exact Or.inl ⟨0, .int 0, .ofInt 0, rfl, by simp [IsTextual], rfl, nofun⟩
  | bool b => exact Or.inl ⟨3, .bool b, _, rfl, by simp [IsTextual], rfl, nofun⟩
  | int n => exact Or.inl ⟨1, .int n, .ofInt n, rfl, by simp [IsTextual], rfl, nofun⟩
  | float x =>
      refine Or.inl ⟨1, .float x, .ofDouble x, rfl, by simp [IsTextual], rfl, ?_⟩
      intro hx hq
      cases x with
      | nan => exact hx rfl
      | infinite negative => cases negative <;> cases hq
      | finite negative m => cases hq
  | str t => exact Or.inr ⟨2, t, rfl, Or.inl rfl⟩
  | arr items => exact Or.inr ⟨4, _, rfl, Or.inr rfl⟩
  | obj members => exact Or.inr ⟨4, _, rfl, Or.inr rfl⟩

/-- Ranks of different tiers are compared as their levels are. -/
theorem before_of_tier_ne {p q : Rank} (h : p.tier ≠ q.tier) :
    p.before q ↔ p.level < q.level := by
  simp [before, before?, level, Prod.Lex.toLex_lt_toLex, h]

/-- Ranks of two numbers in one tier are compared as their levels are. -/
theorem before_of_quantity {tier : ℕ} {v w : Json} {p q : Quantity} (hv : v.quantity? = some p)
    (hw : w.quantity? = some q) (hp : p ≠ .nan) (hq : q ≠ .nan) :
    before ⟨tier, v⟩ ⟨tier, w⟩ ↔ level ⟨tier, v⟩ < level ⟨tier, w⟩ := by
  have hsame := Json.same_of_quantity hv hw
  have hprecedes := Json.precedes?_of_quantity hv hw
  have hbefore : before ⟨tier, v⟩ ⟨tier, w⟩ ↔ p ≠ q ∧ p.less q := by
    by_cases hpq : p = q <;> simp [before, before?, hsame, hprecedes, hpq]
  rw [hbefore, Quantity.less_iff hp hq, level_of_quantity hv, level_of_quantity hw]
  simp only [Prod.Lex.toLex_lt_toLex, lt_irrefl, and_false, or_false, false_or, true_and]
  exact and_iff_right_of_imp fun hlt heq => absurd (congrArg Quantity.level heq) (ne_of_lt hlt)

/-- Ranks of two texts in one tier are compared as their levels are. -/
theorem before_of_text (tier : ℕ) (s t : Text) :
    before ⟨tier, .str s⟩ ⟨tier, .str t⟩ ↔ level ⟨tier, .str s⟩ < level ⟨tier, .str t⟩ := by
  have hbefore : before ⟨tier, .str s⟩ ⟨tier, .str t⟩ ↔ s ≠ t ∧ Text.precedes s t := by
    by_cases hst : s = t <;>
      simp [before, before?, Json.same, Json.sameLeaf, Json.precedes?, Json.leafPrecedes?, hst]
  rw [hbefore, Text.precedes_iff, level_of_text, level_of_text]
  simp only [Prod.Lex.toLex_lt_toLex, lt_irrefl, false_or, true_and]
  exact and_iff_right_of_imp fun hlt heq => absurd (congrArg Text.points heq) (ne_of_lt hlt)

/-- Ranks are ordered as their levels are, unless one of them is the rank of NaN. -/
theorem before_iff {v w : Json} (hv : v ≠ .float .nan) (hw : w ≠ .float .nan) :
    (ofJson v).before (ofJson w) ↔ (ofJson v).level < (ofJson w).level := by
  by_cases htier : (ofJson v).tier = (ofJson w).tier
  · obtain ⟨i, x, p, hi, hitext, hx, hp⟩ | ⟨i, s, hi, hitext⟩ := ofJson_cases v <;>
      obtain ⟨j, y, q, hj, hjtext, hy, hq⟩ | ⟨j, t, hj, hjtext⟩ := ofJson_cases w <;>
      rw [hi, hj] at htier ⊢ <;> obtain rfl : i = j := htier
    · exact before_of_quantity hx hy (hp hv) (hq hw)
    · exact absurd hjtext hitext
    · exact absurd hitext hjtext
    · exact before_of_text i s t
  · exact before_of_tier_ne htier

/-- Ranks are the same if their levels are. -/
theorem ties_iff (v w : Json) :
    (ofJson v).Ties (ofJson w) ↔ (ofJson v).level = (ofJson w).level := by
  obtain ⟨i, x, p, hi, hitext, hx, _⟩ | ⟨i, s, hi, hitext⟩ := ofJson_cases v <;>
    obtain ⟨j, y, q, hj, hjtext, hy, _⟩ | ⟨j, t, hj, hjtext⟩ := ofJson_cases w <;> rw [hi, hj]
  · rw [level_of_quantity hx, level_of_quantity hy]
    simp [Ties, Json.same_of_quantity hx hy, Quantity.level_injective.eq_iff]
  · have hij : i ≠ j := fun h => hitext (h ▸ hjtext)
    simp [Ties, level, hij]
  · have hij : i ≠ j := fun h => hjtext (h ▸ hitext)
    simp [Ties, level, hij]
  · rw [level_of_text, level_of_text]
    simp [Ties, Json.same, Json.sameLeaf, Text.points_injective.eq_iff]

end Rank

/-! ### Keys -/

namespace SortKey

/-- The key puts the first record in front of the second. -/
def before (key : SortKey) (r s : Record) : Bool :=
  match key.direction with
  | .ascending => (Record.rank key.field r).before (Record.rank key.field s)
  | .descending => (Record.rank key.field s).before (Record.rank key.field r)

/-- The key does not tell the two records apart. -/
def Ties (key : SortKey) (r s : Record) : Prop :=
  (Record.rank key.field r).Ties (Record.rank key.field s)

/-- The record does not hold NaN under the key. -/
def Orders (key : SortKey) (r : Record) : Prop :=
  Members.getOrNull r key.field ≠ .float .nan

variable {key : SortKey} {r s : Record}

theorem ties_comm : key.Ties r s ↔ key.Ties s r := by
  rw [Ties, Ties, Record.rank, Record.rank, Rank.ties_iff, Rank.ties_iff]
  exact eq_comm

/-- The order of one pass is a weak order, whatever its direction. -/
theorem weakOrder_rank (key : SortKey) :
    Sorting.WeakOrder key.Orders
      fun r s => (Record.rank key.field r).before (Record.rank key.field s) :=
  .of_lt (fun r => (Record.rank key.field r).level) Rank.before_iff

theorem before_asymm (hr : key.Orders r) (hs : key.Orders s) :
    key.before r s → ¬ key.before s r := by
  unfold before
  cases key.direction with
  | ascending => exact key.weakOrder_rank.asymm hr hs
  | descending => exact key.weakOrder_rank.asymm hs hr

/-- Records that tie are just those of which neither comes before the other. -/
theorem ties_iff_not_before (hr : key.Orders r) (hs : key.Orders s) :
    key.Ties r s ↔ ¬ key.before r s ∧ ¬ key.before s r := by
  have hrs : key.Ties r s ↔
      ¬ (Record.rank key.field r).before (Record.rank key.field s) ∧
        ¬ (Record.rank key.field s).before (Record.rank key.field r) := by
    rw [Ties, Record.rank, Record.rank, Rank.ties_iff, Rank.before_iff hr hs,
      Rank.before_iff hs hr, not_lt, not_lt, and_comm]
    exact le_antisymm_iff
  unfold before
  cases key.direction with
  | ascending => exact hrs
  | descending => exact hrs.trans and_comm

end SortKey

namespace Record

/-! ### The comparison of records -/

/-- A record, and its position in the list that is sorted. -/
abbrev Placed := Record × ℕ

/-- One record belongs in front of another one: the first key on which the two differ
puts it there, or there is no such key and it was given first. -/
def Precedes (keys : List SortKey) (x y : Placed) : Prop :=
  (∃ tied key later, keys = tied ++ key :: later ∧ (∀ k ∈ tied, k.Ties x.1 y.1) ∧
    ¬ key.Ties x.1 y.1 ∧ key.before x.1 y.1) ∨
  ((∀ k ∈ keys, k.Ties x.1 y.1) ∧ x.2 < y.2)

/-- The record holds NaN under none of the keys. -/
def Ordered (keys : List SortKey) (r : Record) : Prop :=
  ∀ key ∈ keys, key.Orders r

variable {keys : List SortKey} {key : SortKey} {x y : Placed}

/-- Without keys the position decides. -/
theorem precedes_nil : Precedes [] x y ↔ x.2 < y.2 := by
  simp [Precedes]

/-- The first key decides, or the later ones if the two records tie on it. -/
theorem precedes_cons :
    Precedes (key :: keys) x y ↔
      (¬ key.Ties x.1 y.1 ∧ key.before x.1 y.1) ∨ (key.Ties x.1 y.1 ∧ Precedes keys x y) := by
  constructor
  · rintro (⟨tied, k, later, heq, htied, hk, hbefore⟩ | ⟨hall, hlt⟩)
    · cases tied with
      | nil =>
          obtain ⟨rfl, _⟩ := List.cons.inj heq
          exact Or.inl ⟨hk, hbefore⟩
      | cons t tied =>
          obtain ⟨rfl, rfl⟩ := List.cons.inj heq
          obtain ⟨ht, htied⟩ := List.forall_mem_cons.mp htied
          exact Or.inr ⟨ht, Or.inl ⟨tied, k, later, rfl, htied, hk, hbefore⟩⟩
    · obtain ⟨hkey, hall⟩ := List.forall_mem_cons.mp hall
      exact Or.inr ⟨hkey, Or.inr ⟨hall, hlt⟩⟩
  · rintro (⟨hkey, hbefore⟩ | ⟨hkey, ⟨tied, k, later, rfl, htied, hk, hbefore⟩ | ⟨hall, hlt⟩⟩)
    · exact Or.inl ⟨[], key, keys, rfl, nofun, hkey, hbefore⟩
    · exact Or.inl ⟨key :: tied, k, later, rfl, List.forall_mem_cons.mpr ⟨hkey, htied⟩, hk, hbefore⟩
    · exact Or.inr ⟨List.forall_mem_cons.mpr ⟨hkey, hall⟩, hlt⟩

theorem precedes_asymm (hx : Ordered keys x.1) (hy : Ordered keys y.1) (h : Precedes keys x y) :
    ¬ Precedes keys y x := by
  induction keys with
  | nil =>
      rw [precedes_nil] at h ⊢
      omega
  | cons key keys ih =>
      obtain ⟨hxkey, hx⟩ := List.forall_mem_cons.mp hx
      obtain ⟨hykey, hy⟩ := List.forall_mem_cons.mp hy
      rw [precedes_cons] at h ⊢
      rw [SortKey.ties_comm (r := y.1)]
      rcases h with ⟨hdiffer, hbefore⟩ | ⟨hties, hlater⟩
      · rintro (⟨_, hafter⟩ | ⟨hties, _⟩)
        · exact SortKey.before_asymm hxkey hykey hbefore hafter
        · exact hdiffer hties
      · rintro (⟨hdiffer, _⟩ | ⟨_, hearlier⟩)
        · exact hdiffer hties
        · exact ih hx hy hlater hearlier

/-! ### Passes -/

/-- One pass over records with their positions. -/
def pass (key : SortKey) (xs : List Placed) : List Placed :=
  let before (x y : Placed) := (rank key.field x.1).before (rank key.field y.1)
  match key.direction with
  | .ascending => Sorting.sortBy before xs
  | .descending => (Sorting.sortBy before xs.reverse).reverse

/-- All passes, from the last key to the first. -/
def passes (keys : List SortKey) (xs : List Placed) : List Placed :=
  keys.foldr pass xs

/-- Positions do not influence a pass. -/
theorem map_pass (key : SortKey) (xs : List Placed) :
    (pass key xs).map Prod.fst = sortPass key (xs.map Prod.fst) := by
  have hmap := Sorting.sortBy_map (fun r s => (rank key.field r).before (rank key.field s))
    (Prod.fst : Placed → Record)
  unfold pass sortPass
  cases key.direction with
  | ascending => exact (hmap xs).symm
  | descending =>
      have hreverse := congrArg List.reverse (hmap xs.reverse)
      simpa only [List.map_reverse] using hreverse.symm

/-- Positions do not influence the passes. -/
theorem map_passes (keys : List SortKey) (xs : List Placed) :
    (passes keys xs).map Prod.fst = sortByKeys keys (xs.map Prod.fst) := by
  induction keys with
  | nil => rfl
  | cons key keys ih =>
      rw [passes, List.foldr_cons, map_pass]
      exact congrArg (sortPass key) ih

theorem perm_pass (key : SortKey) (xs : List Placed) : (pass key xs).Perm xs := by
  unfold pass
  cases key.direction with
  | ascending => exact Sorting.sortBy_perm _ xs
  | descending =>
      exact (List.reverse_perm _).trans ((Sorting.sortBy_perm _ _).trans (List.reverse_perm xs))

/-- All passes rearrange the records. -/
theorem perm_passes (keys : List SortKey) (xs : List Placed) : (passes keys xs).Perm xs := by
  induction keys with
  | nil => exact .refl xs
  | cons key keys ih => exact (perm_pass key _).trans ih

/-- A pass sorts by its key, and leaves records that tie in the order in which they
were, in either direction. -/
theorem pairwise_pass {R : Placed → Placed → Prop} {xs : List Placed}
    (horders : ∀ x ∈ xs, key.Orders x.1) (hxs : xs.Pairwise R) :
    (pass key xs).Pairwise (Sorting.Ahead (fun x y => key.before x.1 y.1) R) := by
  have horder : ∀ ys : List Placed, (∀ y ∈ ys, y ∈ xs) →
      Sorting.WeakOrder (· ∈ ys) fun x y => (rank key.field x.1).before (rank key.field y.1) :=
    fun ys hys => key.weakOrder_rank.comap Prod.fst fun y hy => horders y (hys y hy)
  unfold pass SortKey.before
  cases key.direction with
  | ascending => exact Sorting.pairwise_sortBy (horder xs fun _ hx => hx) hxs
  | descending =>
      have hreverse := Sorting.pairwise_sortBy
        (horder xs.reverse fun _ hx => List.mem_reverse.mp hx) (List.pairwise_reverse.mpr hxs)
      exact List.pairwise_reverse.mpr hreverse

/-- All passes together sort by the comparison of records. -/
theorem pairwise_passes {xs : List Placed} (hordered : ∀ x ∈ xs, Ordered keys x.1)
    (hxs : xs.Pairwise fun x y => x.2 < y.2) : (passes keys xs).Pairwise (Precedes keys) := by
  induction keys with
  | nil => exact hxs.imp precedes_nil.mpr
  | cons key keys ih =>
      have hperm := perm_passes keys xs
      have horders : ∀ x ∈ passes keys xs, key.Orders x.1 :=
        fun x hx => hordered x (hperm.mem_iff.mp hx) key List.mem_cons_self
      have hlater := ih fun x hx k hk => hordered x hx k (List.mem_cons_of_mem key hk)
      refine (pairwise_pass horders hlater).imp_of_mem ?_
      intro x y hx hy hahead
      have hx := horders x ((perm_pass key _).mem_iff.mp hx)
      have hy := horders y ((perm_pass key _).mem_iff.mp hy)
      rw [precedes_cons, SortKey.ties_iff_not_before hx hy]
      -- the later keys decide only if this one does in neither direction
      rcases hahead with hbefore | ⟨hnot, hlater⟩
      · exact Or.inl ⟨fun hties => hties.1 hbefore, hbefore⟩
      · by_cases hbefore : key.before x.1 y.1
        · exact Or.inl ⟨fun hties => hties.1 hbefore, hbefore⟩
        · exact Or.inr ⟨⟨hbefore, hnot⟩, hlater⟩

/-! ### Arrangements -/

/-- The list holds the given records with their positions, and one of them stands in
front of another one just if it belongs there. -/
structure IsArrangement (keys : List SortKey) (rs : List Record) (xs : List Placed) : Prop where
  perm : xs.Perm rs.zipIdx
  lt_iff : ∀ {i j : ℕ} {x y : Placed}, xs[i]? = some x → xs[j]? = some y →
    (i < j ↔ Precedes keys x y)

/-- The passes give the only arrangement. -/
theorem isArrangement_iff {rs : List Record} (hordered : ∀ r ∈ rs, Ordered keys r)
    {xs : List Placed} : IsArrangement keys rs xs ↔ xs = passes keys rs.zipIdx := by
  have hplaced : ∀ x ∈ rs.zipIdx, Ordered keys x.1 :=
    fun x hx => hordered x.1 (List.fst_mem_of_mem_zipIdx hx)
  have hperm := perm_passes keys rs.zipIdx
  have hpairwise : (passes keys rs.zipIdx).Pairwise (Precedes keys) := by
    refine pairwise_passes hplaced ?_
    rw [← List.pairwise_map (f := Prod.snd) (R := (· < ·)), List.zipIdx_map_snd]
    exact List.pairwise_lt_range'
  have hasymm : ∀ x ∈ rs.zipIdx, ∀ y ∈ rs.zipIdx, Precedes keys x y → ¬ Precedes keys y x :=
    fun x hx y hy => precedes_asymm (hplaced x hx) (hplaced y hy)
  constructor
  · rintro ⟨hxs, hlt⟩
    have hsorted : xs.Pairwise (Precedes keys) := by
      rw [List.pairwise_iff_getElem]
      intro i j hi hj hij
      exact (hlt (List.getElem?_eq_getElem hi) (List.getElem?_eq_getElem hj)).mp hij
    refine List.Perm.eq_of_pairwise ?_ hsorted hpairwise (hxs.trans hperm.symm)
    intro x y hx hy hxy hyx
    exact absurd hyx (hasymm x (hxs.mem_iff.mp hx) y (hperm.mem_iff.mp hy) hxy)
  · rintro rfl
    refine ⟨hperm, ?_⟩
    intro i j x y hi hj
    have hx := hperm.mem_iff.mp (List.mem_of_getElem? hi)
    have hy := hperm.mem_iff.mp (List.mem_of_getElem? hj)
    have hrel : ∀ {i j : ℕ} {x y : Placed}, (passes keys rs.zipIdx)[i]? = some x →
        (passes keys rs.zipIdx)[j]? = some y → i < j → Precedes keys x y := by
      intro i j x y hx hy hij
      obtain ⟨hilt, rfl⟩ := List.getElem?_eq_some_iff.mp hx
      obtain ⟨hjlt, rfl⟩ := List.getElem?_eq_some_iff.mp hy
      exact List.pairwise_iff_getElem.mp hpairwise i j hilt hjlt hij
    constructor
    · exact hrel hi hj
    · intro hxy
      by_contra hij
      rcases Nat.lt_or_eq_of_le (Nat.le_of_not_lt hij) with hji | rfl
      · exact hasymm x hx y hy hxy (hrel hj hi hji)
      · obtain rfl : x = y := Option.some.inj (hi.symm.trans hj)
        exact hasymm x hx x hx hxy hxy

/-- **Sorting by several keys.**  Sorting never fails, and rearranges the records.  If
none of them holds NaN under a key, the result is the one arrangement in which a
record stands in front of another one if the first key on which the two differ puts it
there, or if they tie on all keys and it was given first.  A missing field ties with
null, and an integer with the double of the same value. -/
theorem sortByKeys_arranged (keys : List SortKey) (rs : List Record) :
    (∃ sorted, sortByKeys? keys rs = some sorted ∧ sorted.Perm rs ∧
      ((∀ r ∈ rs, Ordered keys r) →
        ∃ placed : List Placed, placed.map Prod.fst = sorted ∧
          ∀ xs, IsArrangement keys rs xs ↔ xs = placed)) ∧
    (∀ (key : SortKey) (r s : Record), Members.get? r key.field = none →
      Members.get? s key.field = some .null → key.Ties r s) ∧
    ∀ (key : SortKey) (r s : Record) (n : ℤ) (x : Double),
      Members.get? r key.field = some (.int n) → Members.get? s key.field = some (.float x) →
        (key.Ties r s ↔ Quantity.ofInt n = .ofDouble x) := by
  have hmap : (passes keys rs.zipIdx).map Prod.fst = sortByKeys keys rs := by
    rw [map_passes, List.zipIdx_map_fst]
  refine ⟨⟨sortByKeys keys rs, sortByKeys?_eq keys rs, ?_, ?_⟩, ?_, ?_⟩
  · have hperm := (perm_passes keys rs.zipIdx).map Prod.fst
    rw [hmap, List.zipIdx_map_fst] at hperm
    exact hperm
  · intro hordered
    exact ⟨passes keys rs.zipIdx, hmap, fun xs => isArrangement_iff hordered⟩
  · intro key r s hr hs
    rw [SortKey.Ties, rank, rank, Members.getOrNull, Members.getOrNull, hr, hs, Rank.ties_iff,
      Option.getD_none, Option.getD_some]
  · intro key r s n x hr hs
    rw [SortKey.Ties, rank, rank, Members.getOrNull, Members.getOrNull, hr, hs]
    simp [Rank.Ties, Rank.ofJson, Json.same_of_quantity (v := .int n) (w := .float x) rfl rfl]

/-- Three records tie on the first key.  The second key, which is descending, puts one
of them in front, and the other two keep their order.  The integer 1 and the double 1
tie under any key. -/
theorem sortByKeys_arranged_two_keys :
    let w : Record := [("a", .str "q"), ("b", .str "m")]
    let x : Record := [("_id", .str "x"), ("a", .str "p"), ("b", .str "m")]
    let y : Record := [("_id", .str "y"), ("a", .str "p"), ("b", .str "n")]
    let z : Record := [("_id", .str "z"), ("a", .str "p"), ("b", .str "m")]
    let keys : List SortKey := [⟨"a", .ascending⟩, ⟨"b", .descending⟩]
    (∀ r ∈ [w, x, y, z], Ordered keys r) ∧
      (∃ placed : List Placed, placed.map Prod.fst = [y, x, z, w] ∧
        ∀ xs, IsArrangement keys [w, x, y, z] xs ↔ xs = placed) ∧
      Quantity.ofInt 1 = .ofDouble Double.one ∧
      SortKey.Ties ⟨"a", .descending⟩ [("a", .int 1)] [("a", .float Double.one)] := by
  intro w x y z keys
  have hordered : ∀ r ∈ [w, x, y, z], Ordered keys r := by
    have htext : ∀ r ∈ [w, x, y, z], ∀ key ∈ keys, ∃ t, Members.getOrNull r key.field = .str t := by
      simp only [List.forall_mem_cons, keys]
      exact ⟨⟨⟨_, rfl⟩, ⟨_, rfl⟩, nofun⟩, ⟨⟨_, rfl⟩, ⟨_, rfl⟩, nofun⟩, ⟨⟨_, rfl⟩, ⟨_, rfl⟩, nofun⟩,
        ⟨⟨_, rfl⟩, ⟨_, rfl⟩, nofun⟩, nofun⟩
    intro r hr key hkey hnan
    obtain ⟨t, ht⟩ := htext r hr key hkey
    rw [ht] at hnan
    cases hnan
  have heval : sortByKeys? keys [w, x, y, z] = some [y, x, z, w] := by
    simp only [w, x, y, z, keys]
    rfl
  obtain ⟨⟨sorted, hsorted, _, harranged⟩, _, hties⟩ := sortByKeys_arranged keys [w, x, y, z]
  have heq : sorted = [y, x, z, w] := Option.some.inj (hsorted.symm.trans heval)
  have hone : Quantity.ofInt 1 = .ofDouble Double.one := by decide +kernel
  exact ⟨hordered, heq ▸ harranged hordered, hone, (hties _ _ _ 1 Double.one rfl rfl).mpr hone⟩

end Record

end RecordLog
