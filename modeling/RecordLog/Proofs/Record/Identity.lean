import RecordLog.Proofs.Json.Canonical
import RecordLog.Proofs.Json.Pairs
import RecordLog.Proofs.Record.Appending

/-!
# Identity and equality

The identity of a record refines the equality of queries.  It is the equality of leaves, except
that NaN is one identity and equals nothing (`ofJson_eq_iff_of_isLeaf`).  An array or an object
is identified by its canonical written form, which tells integers, doubles and booleans apart
where equality does not, but no orders of members (`ofJson_eq_iff_of_not_isLeaf`).

The canonical form is written with escapes, so this takes that no two halves of a surrogate pair
stand side by side.  They do not in the records of a log, since it is decoded from UTF-8
(`Log.load_given`), so for these nothing more is to be taken (`Log.load_identity_refines`).
-/

namespace RecordLog

open Json

namespace Identity

variable {v w : Json}

/-- The identity of an array or an object is how it is written canonically. -/
theorem ofJson_of_not_isLeaf (h : v.isLeaf = false) :
    ofJson v = .composite (v.write .canonical) := by
  cases v with
  | arr | obj => rfl
  | _ => cases h

/-- The identity of a leaf is not that of an array or an object. -/
theorem ofJson_ne_composite (h : v.isLeaf) (written : Text) : ofJson v ≠ .composite written := by
  cases v with
  | arr | obj => cases h
  | _ => nofun

/-- A leaf and an array or object are never one. -/
theorem ofJson_ne_of_isLeaf (hv : v.isLeaf) (hw : w.isLeaf = false) : ofJson v ≠ ofJson w := by
  rw [ofJson_of_not_isLeaf hw]
  exact ofJson_ne_composite hv _

/-- Leaves are one if they are the same and no boolean is taken for a number. -/
theorem ofJson_eq_iff_same (hv : v.isLeaf) (hw : w.isLeaf) :
    ofJson v = ofJson w ↔ SameBoolean v w ∧ v.same w = true := by
  cases v <;> cases w <;>
    simp_all [ofJson, SameBoolean, same, sameLeaf, quantity?, isLeaf,
      Quantity.ofInt_injective.eq_iff]

/-- Leaves are one if they are equal, or both NaN. -/
theorem ofJson_eq_iff_of_isLeaf (hv : v.isLeaf) (hw : w.isLeaf) :
    ofJson v = ofJson w ↔ v.strictEq w = true ∨ v = .float .nan ∧ w = .float .nan := by
  rw [ofJson_eq_iff_same hv hw, strictEq_iff_same]
  constructor
  · rintro ⟨hboolean, hsame⟩
    by_cases hnan : v = .float .nan
    · subst hnan
      exact .inr ⟨rfl, eq_nan_of_quantity? (quantity?_eq_of_same hsame).symm⟩
    · exact .inl ⟨hnan, hboolean, hsame⟩
  · rintro (⟨-, hboolean, hsame⟩ | ⟨rfl, rfl⟩)
    · exact ⟨hboolean, hsame⟩
    · exact ⟨fun _ => Iff.rfl, rfl⟩

/-- Arrays and objects are one if they have one shape and the same leaves at every position. -/
theorem ofJson_eq_iff_of_not_isLeaf (hv : v.isLeaf = false) (hw : w.isLeaf = false)
    (hvread : Readable v) (hwread : Readable w) (hvpairs : EachText PairsJoined v)
    (hwpairs : EachText PairsJoined w) : ofJson v = ofJson w ↔ Corresponds Eq v w := by
  rw [ofJson_of_not_isLeaf hv, ofJson_of_not_isLeaf hw, composite.injEq,
    write_canonical_eq_iff hvread hwread hvpairs hwpairs]

/-- Arrays and objects of one shape with the same leaves are equal. -/
theorem strictEq_of_corresponds (hv : v.isLeaf = false) (hw : w.isLeaf = false)
    (hvread : Readable v) (hwread : Readable w) (h : Corresponds Eq v w) :
    v.strictEq w = true := by
  have hboolean : ∀ {u : Json}, u.isLeaf = false → ∀ b, u ≠ .bool b := by
    rintro u hu b rfl
    cases hu
  refine strictEq_iff_same.mpr ⟨?_, ?_, ?_⟩
  · rintro rfl
    cases hv
  · exact fun b => iff_of_false (hboolean hv b) (hboolean hw b)
  · rw [same_iff hvread.wellFormed hwread.wellFormed]
    refine h.imp ?_
    rintro u _ hu - rfl
    exact .refl hu

end Identity

namespace Record

/-- A property of null and of all values of a record is one of its identifying value. -/
theorem id_holds {P : Json → Prop} {r : Record} (hnull : P .null) (h : ∀ kv ∈ r, P kv.2) :
    P (id r) := by
  unfold id Members.getOrNull
  cases hv : Members.get? r idField with
  | none => exact hnull
  | some v => exact h _ (Members.mem_of_get? hv)

variable {r s : Record}

/-- The identifying value of a record that a document gives is readable. -/
theorem readable_id (h : Given (.obj r)) : Readable (id r) :=
  id_holds trivial (readableMembers_iff.mp h.readable.2)

/-- The identifying value of a record that a document gives has no two halves side by side. -/
theorem pairsJoined_id (h : Given (.obj r)) : EachText PairsJoined (id r) :=
  id_holds trivial fun kv hkv => (eachMemberText_iff.mp h.pairsJoined kv hkv).2

/-- A leaf and an array or object are never one. -/
theorem identity_ne_of_isLeaf_ne (h : (id r).isLeaf ≠ (id s).isLeaf) :
    identity r ≠ identity s := by
  cases hleaf : (id r).isLeaf with
  | true => exact Identity.ofJson_ne_of_isLeaf hleaf (Bool.eq_false_iff.mpr (hleaf ▸ h.symm))
  | false =>
      have hleaf' : (id s).isLeaf = true := Bool.eq_true_of_not_eq_false (hleaf ▸ h.symm)
      exact (Identity.ofJson_ne_of_isLeaf hleaf' hleaf).symm

/-- Arrays and objects are one if they have one shape and the same leaves. -/
theorem identity_eq_iff_of_not_isLeaf (hr : Given (.obj r)) (hs : Given (.obj s))
    (hv : (id r).isLeaf = false) (hw : (id s).isLeaf = false) :
    identity r = identity s ↔ Corresponds Eq (id r) (id s) :=
  Identity.ofJson_eq_iff_of_not_isLeaf hv hw (readable_id hr) (readable_id hs)
    (pairsJoined_id hr) (pairsJoined_id hs)

/-- What has one identity is equal, or NaN on both sides. -/
theorem strictEq_of_identity_eq (hr : Given (.obj r)) (hs : Given (.obj s))
    (heq : identity r = identity s) :
    (id r).strictEq (id s) = true ∨ id r = .float .nan ∧ id s = .float .nan := by
  have hsame : (id r).isLeaf = (id s).isLeaf :=
    not_ne_iff.mp fun hne => identity_ne_of_isLeaf_ne hne heq
  cases hleaf : (id r).isLeaf with
  | true => exact (Identity.ofJson_eq_iff_of_isLeaf hleaf (hsame ▸ hleaf)).mp heq
  | false =>
      have hleaf' : (id s).isLeaf = false := hsame ▸ hleaf
      exact .inl (Identity.strictEq_of_corresponds hleaf hleaf' (readable_id hr) (readable_id hs)
        ((identity_eq_iff_of_not_isLeaf hr hs hleaf hleaf').mp heq))

/-- **Identity refines equality.**  Let two records be given by documents, as those of a log are.
If they have one identity, their identifying values are equal, or both NaN; and for
leaves this is all that it takes.  A leaf and an array or object are never one, even if a text
spells the written form of an object.  Arrays and objects are one if they have one shape and at
every position the same leaf: the order of members does not matter, and integers, doubles and
booleans are told apart. -/
theorem identity_refines_equality (hr : Given (.obj r)) (hs : Given (.obj s)) :
    (identity r = identity s →
      (id r).strictEq (id s) = true ∨ id r = .float .nan ∧ id s = .float .nan) ∧
    ((id r).isLeaf → (id s).isLeaf → (identity r = identity s ↔
      (id r).strictEq (id s) = true ∨ id r = .float .nan ∧ id s = .float .nan)) ∧
    ((id r).isLeaf ≠ (id s).isLeaf → identity r ≠ identity s) ∧
    ((id r).isLeaf = false → (id s).isLeaf = false →
      (identity r = identity s ↔ Corresponds Eq (id r) (id s))) := by
  exact ⟨strictEq_of_identity_eq hr hs, Identity.ofJson_eq_iff_of_isLeaf,
    identity_ne_of_isLeaf_ne, identity_eq_iff_of_not_isLeaf hr hs⟩

/-- Two orders of the same members.  The text that spells them is another identity, and so is the
object with a boolean in the place of the number, although that is equal. -/
theorem identity_refines_equality_reordered :
    let r : Record := [("_id", .obj [("b", .int 1), ("a", .null)])]
    let s : Record := [("_id", .obj [("a", .null), ("b", .int 1)])]
    let t : Record := [("_id", .str ((id r).write .canonical))]
    let u : Record := [("_id", .obj [("a", .null), ("b", .bool true)])]
    (∀ v ∈ [r, s, t, u], Given (.obj v)) ∧ identity r = identity s ∧
      (id r).strictEq (id s) = true ∧ Corresponds Eq (id r) (id s) ∧ identity r ≠ identity t ∧
      (id r).strictEq (id u) = true ∧ ¬ Corresponds Eq (id r) (id u) := by
  intro r s t u
  have hgiven : ∀ v : Json, Readable v → SurrogateFree v → Given (.obj [("_id", v)]) :=
    fun v hv hfree => given_of_surrogateFree ⟨List.nodup_singleton _, hv, trivial⟩
      ⟨by decide +kernel, hfree, trivial⟩
  have hint : Readable (.int 1) := by
    rw [Readable]
    decide +kernel
  have hwritten : ∀ c ∈ (id r).write .canonical, ¬ c.isSurrogate := by decide +kernel
  have hr : Given (.obj r) := hgiven _ ⟨by decide +kernel, hint, trivial, trivial⟩
    ⟨by decide +kernel, trivial, by decide +kernel, trivial, trivial⟩
  have hs : Given (.obj s) := hgiven _ ⟨by decide +kernel, trivial, hint, trivial⟩
    ⟨by decide +kernel, trivial, by decide +kernel, trivial, trivial⟩
  have ht : Given (.obj t) := hgiven _ trivial hwritten
  have hu : Given (.obj u) := hgiven _ ⟨by decide +kernel, trivial, trivial, trivial⟩
    ⟨by decide +kernel, trivial, by decide +kernel, trivial, trivial⟩
  obtain ⟨hrefines, -, -, hcontainers⟩ := identity_refines_equality hr hs
  obtain ⟨-, -, hmixed, -⟩ := identity_refines_equality hr ht
  obtain ⟨-, -, -, hapart⟩ := identity_refines_equality hr hu
  have hone : identity r = identity s := by decide +kernel
  have hequal := (hrefines hone).resolve_right fun hnan => by cases hnan.1
  refine ⟨?_, hone, hequal, (hcontainers rfl rfl).mp hone, hmixed Bool.false_ne_true,
    by decide +kernel, ?_⟩
  · simp only [List.forall_mem_cons]
    exact ⟨hr, hs, ht, hu, List.forall_mem_nil _⟩
  · rw [← hapart rfl rfl]
    decide +kernel

end Record

/-- The records of a log are given by documents. -/
theorem Log.load_given {path : Path} {strictIds : Bool} {content : Octets} {records : List Record}
    (h : load path strictIds content = .ok records) : ∀ r ∈ records, Given (.obj r) := by
  intro r hr
  obtain ⟨line, payload, ⟨t, -, ht, rfl⟩, hread, -⟩ := exists_holds_of_load h r hr
  exact ⟨_, fun c hc => ht c ((Text.dropTrailing_prefix _ t).subset hc), hread⟩

/-- The identities of the records of a log refine equality: one identity is equality, or NaN on
both sides, and arrays and objects are one if they have one shape and the same leaves. -/
theorem Log.load_identity_refines {path : Path} {strictIds : Bool} {content : Octets}
    {records : List Record} (h : load path strictIds content = .ok records) {r s : Record}
    (hr : r ∈ records) (hs : s ∈ records) :
    (r.identity = s.identity →
      (Record.id r).strictEq (Record.id s) = true ∨
        Record.id r = .float .nan ∧ Record.id s = .float .nan) ∧
    ((Record.id r).isLeaf = false → (Record.id s).isLeaf = false →
      (r.identity = s.identity ↔ Corresponds Eq (Record.id r) (Record.id s))) := by
  have hgiven := load_given h
  exact ⟨Record.strictEq_of_identity_eq (hgiven r hr) (hgiven s hs),
    Record.identity_eq_iff_of_not_isLeaf (hgiven r hr) (hgiven s hs)⟩

end RecordLog
