import RecordLog.Proofs.Json.LongInteger
import RecordLog.Proofs.Json.Members

/-!
# What readers give

A property of the values that documents give is shown for atoms, strings, arrays and objects.
It may depend on a property of the text, which the ends of a text have to share, and on one of
the texts inside the value (`Keeps`).  Then every document with the one gives a value with the
other (`Keeps.read`).

The readers call each other with less fuel, so one induction on the fuel serves all of them
(`Keeps.gives`), with one lemma for each reader.
-/

namespace RecordLog.Json

/-- What a reading gives, if it gives anything, has a property. -/
def Gives {α : Type} (P : α → Prop) (r : Reading α) : Prop :=
  ∀ v rest, r = .ok (v, rest) → P v

/-- A reading that gives a value has its property. -/
theorem Gives.ok {α : Type} {P : α → Prop} {v : α} (h : P v) (rest : Text) :
    Gives P (.ok (v, rest)) := by
  rintro _ _ ⟨⟩
  exact h

/-- A reading that fails gives nothing, so any property holds of it. -/
theorem Gives.error {α : Type} {P : α → Prop} (e : ReadError) : Gives P (.error e) := by
  rintro _ _ ⟨⟩

/-- From texts with the property `T`, strings with the property `K` are read, and atoms with the
property `P`; and what is made of these has the property `P` again. -/
structure Keeps (T K : Text → Prop) (P : Json → Prop) : Prop where
  suffix : ∀ {s t : Text}, T t → s <:+ t → T s
  string : ∀ {t : Text}, T t → ∀ fuel, Gives K (readString fuel t)
  atom : ∀ {t : Text}, T t → Gives P (readAtom t)
  str : ∀ {t : Text}, K t → P (str t)
  arr : ∀ {items : List Json}, (∀ v ∈ items, P v) → P (arr items)
  obj : ∀ {members : Members}, (∀ kv ∈ members, K kv.1 ∧ P kv.2) →
    P (obj (Members.ofList members))

/-- What the readers give with some fuel has the properties. -/
structure GivesWith (T K : Text → Prop) (P : Json → Prop) (fuel : Nat) : Prop where
  value : ∀ {t : Text}, T t → Gives P (readValue fuel t)
  items : ∀ {t : Text}, T t → Gives (fun items => ∀ v ∈ items, P v) (readItems fuel t)
  members : ∀ {t : Text}, T t →
    Gives (fun members => ∀ kv ∈ members, K kv.1 ∧ P kv.2) (readMembers fuel t)

namespace Keeps

variable {T K : Text → Prop} {P : Json → Prop} (h : Keeps T K P) {fuel : Nat} {t : Text}
include h

/-- A value has the property if, with less fuel, all that is read has it. -/
theorem readValue (ih : GivesWith T K P fuel) (ht : T t) :
    Gives P (Json.readValue (fuel + 1) t) := by
  cases t with
  | nil => exact Gives.error _
  | cons c t =>
      have htail : T t := h.suffix ht (List.suffix_cons c t)
      have hspace : T (skipSpace t) := h.suffix htail (skipSpace_suffix t)
      rw [Json.readValue]
      split
      · split
        · next heq => exact Gives.ok (h.str (h.string htail _ _ _ heq)) _
        · exact Gives.error _
      · split
        · simp only
          split
          · exact Gives.error _
          · split
            · exact Gives.ok (h.arr (List.forall_mem_nil _)) _
            · split
              · next items rest heq => exact Gives.ok (h.arr (ih.items hspace items rest heq)) rest
              · exact Gives.error _
        · split
          · simp only
            split
            · exact Gives.error _
            · split
              · have hempty : P (Json.obj (Members.ofList [])) := h.obj (List.forall_mem_nil _)
                exact Gives.ok hempty _
              · split
                · next members rest heq =>
                    exact Gives.ok (h.obj (ih.members hspace members rest heq)) rest
                · exact Gives.error _
          · exact h.atom ht

/-- Items have the property if, with less fuel, all that is read has it. -/
theorem readItems (ih : GivesWith T K P fuel) (ht : T t) :
    Gives (fun items => ∀ v ∈ items, P v) (Json.readItems (fuel + 1) t) := by
  rw [Json.readItems]
  split
  · exact Gives.error _
  · next v rest hvalue =>
      have hv := ih.value ht v rest hvalue
      have hrest := ((readsWith fuel).value t).of_ok hvalue
      split
      · exact Gives.error _
      · next c after hspace =>
          have hafter : T (skipSpace after) :=
            h.suffix ht ((skipSpace_suffix after).trans (suffix_of_skipSpace_eq hrest hspace))
          split
          · exact Gives.ok (List.forall_mem_singleton.mpr hv) _
          · split
            · split
              · next later rest heq =>
                  have hlater := ih.items hafter later rest heq
                  exact Gives.ok (List.forall_mem_cons.mpr ⟨hv, hlater⟩) rest
              · exact Gives.error _
            · exact Gives.error _

/-- Members have the property if, with less fuel, all that is read has it. -/
theorem readMembers (ih : GivesWith T K P fuel) (ht : T t) :
    Gives (fun members => ∀ kv ∈ members, K kv.1 ∧ P kv.2) (Json.readMembers (fuel + 1) t) := by
  cases t with
  | nil => exact Gives.error _
  | cons q t =>
      have htail : T t := h.suffix ht (List.suffix_cons q t)
      rw [Json.readMembers]
      split
      · exact Gives.error _
      · split
        · exact Gives.error _
        · next key rest hstring =>
            have hkey := h.string htail _ key rest hstring
            have hrest := (readString_reads _ t).of_ok hstring
            split
            · exact Gives.error _
            · next colon start hcolon =>
                have hstart : skipSpace start <:+ t :=
                  (skipSpace_suffix start).trans (suffix_of_skipSpace_eq hrest hcolon)
                split
                · exact Gives.error _
                · split
                  · exact Gives.error _
                  · next v rest hvalue =>
                      have hv := ih.value (h.suffix htail hstart) v rest hvalue
                      have hrest := (((readsWith fuel).value _).of_ok hvalue).trans hstart
                      split
                      · exact Gives.error _
                      · next c after hspace =>
                          have hafter : T (skipSpace after) := h.suffix htail
                            ((skipSpace_suffix after).trans (suffix_of_skipSpace_eq hrest hspace))
                          have hcons : ∀ later : Members, (∀ kv ∈ later, K kv.1 ∧ P kv.2) →
                              ∀ kv ∈ (key, v) :: later, K kv.1 ∧ P kv.2 := fun _ hlater =>
                            List.forall_mem_cons.mpr ⟨⟨hkey, hv⟩, hlater⟩
                          split
                          · exact Gives.ok (hcons [] (List.forall_mem_nil _)) _
                          · split
                            · split
                              · next later rest heq =>
                                  have hlater := ih.members hafter later rest heq
                                  exact Gives.ok (hcons later hlater) rest
                              · exact Gives.error _
                            · exact Gives.error _

/-- With any fuel, what is read has the property. -/
theorem gives (fuel : Nat) : GivesWith T K P fuel := by
  induction fuel with
  | zero => exact ⟨fun _ => Gives.error _, fun _ => Gives.error _, fun _ => Gives.error _⟩
  | succ fuel ih => exact ⟨h.readValue ih, h.readItems ih, h.readMembers ih⟩

/-- **What a document gives** has a property that readers keep. -/
theorem read (ht : T t) {v : Json} (hread : Json.read t = .ok v) : P v := by
  unfold Json.read at hread
  split at hread
  · next c t =>
      split at hread
      · cases hread
      · simp only at hread
        split at hread
        · cases hread
        · next w rest hvalue =>
            have hw := (h.gives _).value (h.suffix ht (skipSpace_suffix _)) w rest hvalue
            split at hread
            · obtain rfl := Except.ok.inj hread
              exact hw
            · cases hread
  · cases hread

end Keeps

end RecordLog.Json
