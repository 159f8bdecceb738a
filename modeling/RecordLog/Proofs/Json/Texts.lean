import RecordLog.Json

/-!
# Texts inside values

A value holds texts at any depth: as values of its own kind, and as the keys of objects.
`Json.TextsHold` says of all their code points that they have a property.  The property of
most use is not to be a lone surrogate, since UTF-8 has no octets for these.  `Json.EachText`
says of the texts themselves that they have a property.
-/

namespace RecordLog.Json

mutual

/-- The code points of all texts and keys inside the value have a property. -/
def TextsHold (P : CodePoint → Prop) : Json → Prop
  | str t => ∀ c ∈ t, P c
  | arr items => ItemTextsHold P items
  | obj members => MemberTextsHold P members
  | _ => True

/-- The texts of every item have the property. -/
def ItemTextsHold (P : CodePoint → Prop) : List Json → Prop
  | [] => True
  | v :: later => TextsHold P v ∧ ItemTextsHold P later

/-- The key and the texts of every member have the property. -/
def MemberTextsHold (P : CodePoint → Prop) : List (Text × Json) → Prop
  | [] => True
  | (key, v) :: later => (∀ c ∈ key, P c) ∧ TextsHold P v ∧ MemberTextsHold P later

end

mutual

/-- A property of all code points is one of those inside a value. -/
theorem textsHold_of_forall {P : CodePoint → Prop} (h : ∀ c, P c) : ∀ v : Json, TextsHold P v
  | null => trivial
  | bool _ => trivial
  | int _ => trivial
  | float _ => trivial
  | str _ => fun c _ => h c
  | arr items => itemTextsHold_of_forall h items
  | obj members => memberTextsHold_of_forall h members

/-- A property of all code points is one of those inside items. -/
theorem itemTextsHold_of_forall {P : CodePoint → Prop} (h : ∀ c, P c) :
    ∀ items : List Json, ItemTextsHold P items
  | [] => trivial
  | v :: later => ⟨textsHold_of_forall h v, itemTextsHold_of_forall h later⟩

/-- A property of all code points is one of those inside members. -/
theorem memberTextsHold_of_forall {P : CodePoint → Prop} (h : ∀ c, P c) :
    ∀ members : Members, MemberTextsHold P members
  | [] => trivial
  | (_, v) :: later =>
    ⟨fun c _ => h c, textsHold_of_forall h v, memberTextsHold_of_forall h later⟩

end

/-- A property of the texts of items is one of each item. -/
theorem itemTextsHold_iff {P : CodePoint → Prop} {items : List Json} :
    ItemTextsHold P items ↔ ∀ v ∈ items, TextsHold P v := by
  induction items with
  | nil => exact iff_of_true trivial (List.forall_mem_nil _)
  | cons v later ih => rw [ItemTextsHold, ih, List.forall_mem_cons]

/-- No text and no key inside the value has a lone surrogate. -/
def SurrogateFree (v : Json) : Prop :=
  TextsHold (fun c => ¬ c.isSurrogate) v

/-! ### Texts as wholes -/

mutual

/-- All texts and keys inside the value have a property. -/
def EachText (K : Text → Prop) : Json → Prop
  | str t => K t
  | arr items => EachItemText K items
  | obj members => EachMemberText K members
  | _ => True

/-- The texts of every item have the property. -/
def EachItemText (K : Text → Prop) : List Json → Prop
  | [] => True
  | v :: later => EachText K v ∧ EachItemText K later

/-- The key and the texts of every member have the property. -/
def EachMemberText (K : Text → Prop) : List (Text × Json) → Prop
  | [] => True
  | (key, v) :: later => K key ∧ EachText K v ∧ EachMemberText K later

end

/-- A property of the texts of items is one of each item. -/
theorem eachItemText_iff {K : Text → Prop} {items : List Json} :
    EachItemText K items ↔ ∀ v ∈ items, EachText K v := by
  induction items with
  | nil => exact iff_of_true trivial (List.forall_mem_nil _)
  | cons v later ih => rw [EachItemText, ih, List.forall_mem_cons]

/-- A property of the texts of members is one of each member. -/
theorem eachMemberText_iff {K : Text → Prop} {members : Members} :
    EachMemberText K members ↔ ∀ kv ∈ members, K kv.1 ∧ EachText K kv.2 := by
  induction members with
  | nil => exact iff_of_true trivial (List.forall_mem_nil _)
  | cons kv later ih => rw [EachMemberText, ih, List.forall_mem_cons, and_assoc]

end RecordLog.Json
