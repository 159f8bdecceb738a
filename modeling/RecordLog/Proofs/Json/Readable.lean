import RecordLog.Proofs.Json.Readings
import RecordLog.Proofs.Text.Digits

/-!
# What documents give

Not every value can be read from a document: an integer has no more digits than are taken,
and an object has no key twice.  `Readable` says that both hold at every depth, and
`read_readable` that every document gives such a value.
-/

namespace RecordLog

namespace Json

/-! ### Readable values -/

mutual

/-- No integer inside the value has more digits than are taken, and no object has a key
twice. -/
def Readable : Json → Prop
  | int n => (Text.digits n.natAbs).length ≤ Numeral.digitLimit
  | arr items => ReadableItems items
  | obj members => (Members.keys members).Nodup ∧ ReadableMembers members
  | _ => True

/-- Every item is readable. -/
def ReadableItems : List Json → Prop
  | [] => True
  | v :: later => Readable v ∧ ReadableItems later

/-- The value of every member is readable. -/
def ReadableMembers : List (Text × Json) → Prop
  | [] => True
  | (_, v) :: later => Readable v ∧ ReadableMembers later

end

/-- Items can be read if each of them can. -/
theorem readableItems_iff {items : List Json} : ReadableItems items ↔ ∀ v ∈ items, Readable v := by
  induction items with
  | nil => exact iff_of_true trivial (List.forall_mem_nil _)
  | cons v later ih => rw [ReadableItems, ih, List.forall_mem_cons]

/-- Members can be read if each value can. -/
theorem readableMembers_iff {members : Members} :
    ReadableMembers members ↔ ∀ kv ∈ members, Readable kv.2 := by
  induction members with
  | nil => exact iff_of_true trivial (List.forall_mem_nil _)
  | cons kv later ih => rw [ReadableMembers, ih, List.forall_mem_cons]

mutual

/-- In a readable value no object has a key twice. -/
theorem Readable.wellFormed : ∀ {v : Json}, Readable v → WellFormed v
  | null, _ => trivial
  | bool _, _ => trivial
  | int _, _ => trivial
  | float _, _ => trivial
  | str _, _ => trivial
  | arr _, h => ReadableItems.wellFormed h
  | obj _, h => ⟨h.1, ReadableMembers.wellFormed h.2⟩

theorem ReadableItems.wellFormed : ∀ {items : List Json}, ReadableItems items →
    WellFormedItems items
  | [], _ => trivial
  | _ :: _, h => ⟨h.1.wellFormed, ReadableItems.wellFormed h.2⟩

theorem ReadableMembers.wellFormed : ∀ {members : Members}, ReadableMembers members →
    WellFormedMembers members
  | [], _ => trivial
  | _ :: _, h => ⟨h.1.wellFormed, ReadableMembers.wellFormed h.2⟩

end

/-- Members that are read become a readable object. -/
theorem readable_ofList {members : Members} (h : ∀ kv ∈ members, Readable kv.2) :
    Readable (obj (Members.ofList members)) := by
  have hnone : (Members.keys []).Nodup := List.nodup_nil
  refine ⟨Members.nodup_keys_setAll hnone members, readableMembers_iff.mpr ?_⟩
  intro kv hkv
  exact h kv ((Members.mem_setAll hkv).resolve_left List.not_mem_nil)

/-! ### Numbers -/

theorem asciiDigit?_lt {c : CodePoint} {d : Nat} (h : c.asciiDigit? = some d) : d < 10 := by
  rw [CodePoint.asciiDigit?] at h
  split at h
  · next hrange =>
      rw [Bool.and_eq_true, decide_eq_true_eq, decide_eq_true_eq] at hrange
      have hd := Option.some.inj h
      omega
  · cases h

/-- Digits that are cut off are less than ten. -/
theorem cutDigits_lt (t : Text) : ∀ d ∈ (cutDigits t).1, d < 10 := by
  induction t with
  | nil => exact List.forall_mem_nil _
  | cons c t ih =>
      rw [cutDigits]
      split
      · next d hd => exact List.forall_mem_cons.mpr ⟨asciiDigit?_lt hd, ih⟩
      · exact List.forall_mem_nil _

theorem cutWhole_lt (t : Text) : ∀ d ∈ (cutWhole t).1, d < 10 := by
  cases t with
  | nil => exact List.forall_mem_nil _
  | cons c t =>
      rw [cutWhole]
      split
      · exact List.forall_mem_singleton.mpr (by decide)
      · exact cutDigits_lt (c :: t)

/-- An integer made of digits has few enough to be read again. -/
theorem signedInt?_readable {negative : Bool} {ds : List Nat} {n : Int}
    (hds : ∀ d ∈ ds, d < 10) (hne : ds ≠ []) (h : Numeral.signedInt? negative ds = some n) :
    Readable (int n) := by
  rw [Numeral.signedInt?] at h
  split at h
  · next hlength =>
      have hvalue : n.natAbs = Text.digitsValue ds := by
        rw [← Option.some.inj h]
        cases negative
        · exact Int.natAbs_natCast _
        · exact (Int.natAbs_neg _).trans (Int.natAbs_natCast _)
      rw [Readable, hvalue]
      exact Nat.le_trans (Text.length_digits_le hds hne) hlength
  · cases h

/-! ### Readings -/

/-- Whether a value is no string, no array and no object. -/
def isAtom : Json → Bool
  | str _ => false
  | arr _ => false
  | obj _ => false
  | _ => true

/-- A readable value that is an atom. -/
def Plain (v : Json) : Prop :=
  Readable v ∧ v.isAtom

/-- What is read as a number is an atom that can be read. -/
theorem readNumber_gives (t : Text) : Gives Plain (readNumber t) := by
  have hdigits := cutWhole_lt (Numeral.cutMinus t).2
  unfold readNumber
  simp only
  split
  · exact Gives.error _
  · next whole rest hne heq =>
      rw [heq] at hdigits
      split
      · split
        · next n hn =>
            refine Gives.ok ⟨signedInt?_readable hdigits ?_ hn, rfl⟩ _
            rintro rfl
            exact hne rfl
        · exact Gives.error _
      · exact Gives.ok ⟨trivial, rfl⟩ _

/-- What is read as an atom is an atom that can be read. -/
theorem readAtom_gives (t : Text) : Gives Plain (readAtom t) := by
  unfold readAtom
  split
  · next reading hword =>
      obtain ⟨entry, hentry, hmap⟩ := List.exists_of_findSome?_eq_some hword
      obtain ⟨rest, _, rfl⟩ := Option.map_eq_some_iff.mp hmap
      have hwords : ∀ w ∈ words, Plain w.2 := by
        simp only [words, List.forall_mem_cons]
        exact ⟨⟨trivial, rfl⟩, ⟨trivial, rfl⟩, ⟨trivial, rfl⟩, ⟨trivial, rfl⟩, ⟨trivial, rfl⟩,
          ⟨trivial, rfl⟩, List.forall_mem_nil _⟩
      exact Gives.ok (hwords entry hentry) rest
  · exact readNumber_gives t

/-- Readers keep to readable values, whatever the text. -/
theorem keeps_readable : Keeps (fun _ => True) (fun _ => True) Readable where
  suffix _ _ := trivial
  string _ _ _ _ _ := trivial
  atom _ v rest hv := (readAtom_gives _ v rest hv).1
  str _ := trivial
  arr hitems := readableItems_iff.mpr hitems
  obj hmembers := readable_ofList fun kv hkv => (hmembers kv hkv).2

/-- **What a document gives is readable.** -/
theorem read_readable {t : Text} {v : Json} (h : read t = .ok v) : Readable v :=
  keeps_readable.read trivial h

end Json

end RecordLog
