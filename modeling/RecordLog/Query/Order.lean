import RecordLog.Record
import RecordLog.Query.Insertion
import RecordLog.Query.Options

/-!
# The order of results

Values are ranked by kind first: missing before numbers before texts before
booleans before arrays and objects.  Within a kind, numbers and texts have their
own order, false comes before true, and arrays and objects are ordered by their
canonical written form.

Records are sorted by one key after the other, the last one first, and every pass
is stable, so that a later key only decides between records that tie on all
earlier ones.

Not every two values have an order, and a sort that has to compare two that have
none fails.  `Rank.before?_ofJson` says that any two ranks have one, whatever the
values, so that `Record.sortByKeys?` always gives `Record.sortByKeys`.
-/

namespace RecordLog

/-- The rank of a value: its tier, and what decides within the tier. -/
structure Rank where
  tier : Nat
  value : Json

namespace Rank

/-- The rank of a value. -/
def ofJson (v : Json) : Rank :=
  match v with
  | .null => ⟨0, .int 0⟩
  | .int n => ⟨1, .int n⟩
  | .float x => ⟨1, .float x⟩
  | .str t => ⟨2, .str t⟩
  | .bool b => ⟨3, .bool b⟩
  | .arr _ => ⟨4, .str (v.write .canonical)⟩
  | .obj _ => ⟨4, .str (v.write .canonical)⟩

/-- Whether a rank comes before another one, if the two have an order.  Within a
tier, values that are the same need none. -/
def before? (p q : Rank) : Option Bool :=
  if p.tier = q.tier && !p.value.same q.value then p.value.precedes? q.value
  else some (p.tier < q.tier)

/-- Whether a rank comes before another one. -/
def before (p q : Rank) : Bool :=
  (p.before? q).getD false

end Rank

namespace Record

/-- The rank of a field of a record. -/
def rank (field : Text) (r : Record) : Rank :=
  Rank.ofJson (Members.getOrNull r field)

/-- Sorts records by one key.  Records that tie keep their order in either
direction. -/
def sortPass (key : SortKey) (rs : List Record) : List Record :=
  let before r s := (rank key.field r).before (rank key.field s)
  match key.direction with
  | .ascending => Sorting.sortBy before rs
  | .descending => (Sorting.sortBy before rs.reverse).reverse

/-- Sorts records by several keys, of which the first is the most important. -/
def sortByKeys (keys : List SortKey) (rs : List Record) : List Record :=
  keys.foldr sortPass rs

/-- Sorts records by one key, unless it comes to two records whose ranks have no
order. -/
def sortPass? (key : SortKey) (rs : List Record) : Option (List Record) :=
  let before r s := (rank key.field r).before? (rank key.field s)
  match key.direction with
  | .ascending => Sorting.sortWith before rs
  | .descending => (Sorting.sortWith before rs.reverse).map List.reverse

/-- Sorts records by several keys, if every pass completes. -/
def sortByKeys? : List SortKey → List Record → Option (List Record)
  | [], rs => some rs
  | key :: keys, rs => (sortByKeys? keys rs).bind (sortPass? key)

end Record

/-! ### Laws -/

/-- Within a tier, all ranks are decided by numbers, or all by texts. -/
theorem Rank.isSome_precedes?_of_tier_eq {v w : Json}
    (h : (ofJson v).tier = (ofJson w).tier) :
    ((ofJson v).value.precedes? (ofJson w).value).isSome := by
  cases v <;> cases w <;> simp only [ofJson] at h ⊢
  -- the tiers differ in the cases that `contradiction` closes
  all_goals
    first
    | contradiction
    | simp [Json.precedes?, Json.leafPrecedes?, Json.quantity?]

/-- Any two ranks have an order. -/
theorem Rank.before?_ofJson (v w : Json) :
    (ofJson v).before? (ofJson w) = some ((ofJson v).before (ofJson w)) := by
  have hsome : ((ofJson v).before? (ofJson w)).isSome := by
    unfold before?
    split
    · next h =>
      rw [Bool.and_eq_true, decide_eq_true_eq] at h
      exact isSome_precedes?_of_tier_eq h.1
    · rfl
  obtain ⟨b, hb⟩ := Option.isSome_iff_exists.mp hsome
  rw [before, hb]
  rfl

/-- A pass never fails: each comparison of two sort values has an answer. -/
theorem Record.sortPass?_eq (key : SortKey) (rs : List Record) :
    sortPass? key rs = some (sortPass key rs) := by
  have hbefore : (fun r s => (rank key.field r).before? (rank key.field s)) =
      fun r s => pure ((rank key.field r).before (rank key.field s)) := by
    funext r s
    exact Rank.before?_ofJson _ _
  simp only [sortPass?, sortPass, hbefore, Sorting.sortWith_pure]
  cases key.direction <;> rfl

/-- Sorting records never fails. -/
theorem Record.sortByKeys?_eq (keys : List SortKey) (rs : List Record) :
    sortByKeys? keys rs = some (sortByKeys keys rs) := by
  induction keys with
  | nil => rfl
  | cons key keys ih =>
    rw [sortByKeys?, ih]
    exact sortPass?_eq key _

end RecordLog
