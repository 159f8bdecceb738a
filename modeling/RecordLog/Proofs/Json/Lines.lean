import RecordLog.Proofs.Json.RoundTrip
import RecordLog.Proofs.Json.SortedMembers
import RecordLog.Proofs.Json.Texts

/-!
# Values on lines

In every style, a value is written with printable ASCII and the code points of its own texts
(`madeOf_write`): separators and numbers are ASCII, and strings escape control characters.
Without escapes for what is not ASCII, every lone surrogate of its texts is there, too
(`surrogateFree_write_iff`).

So a value is written without control characters (`controlFree_write`), and a line feed after
every written value sets the values apart (`splitOn_lines`).
-/

namespace RecordLog

/-- Parts and separators of a kind are joined to a text of that kind. -/
theorem MadeOf.joined {P : CodePoint → Prop} {separator : Text} (hseparator : MadeOf P separator)
    {parts : List Text} (h : ∀ p ∈ parts, MadeOf P p) : MadeOf P (joined separator parts) := by
  match parts with
  | [] => exact nil
  | [p] => exact h p List.mem_cons_self
  | p :: q :: later =>
      have hlater := joined hseparator (List.forall_mem_cons.mp h).2
      exact ((h p List.mem_cons_self).append hseparator).append hlater

/-- A control character is not in a text without any. -/
theorem ControlFree.notMem {t : Text} (h : ControlFree t) {c : CodePoint} (hc : c.val < 0x20) :
    c ∉ t :=
  fun hmem => Nat.not_le_of_lt hc (h c hmem)

namespace Json

variable {P : CodePoint → Prop}

/-- The marks of a number are printable. -/
theorem printable_of_mem_numberMarks : ∀ c ∈ numberMarks, c.IsPrintableAscii := by
  decide

/-- A text made of the marks of a number is of any kind that takes in printable ASCII. -/
theorem madeOf_of_subset {t : Text} (h : t ⊆ numberMarks) : MadeOf P t :=
  MadeOf.of_ascii fun c hc => printable_of_mem_numberMarks c (h hc)

theorem madeOf_ofInt (n : Int) : MadeOf P (Text.ofInt n) :=
  madeOf_of_subset (ofInt_subset n)

theorem madeOf_render (x : Double) : MadeOf P (x.render doubleWords) := by
  cases x with
  | nan => exact MadeOf.of_ascii (by decide)
  | infinite negative => cases negative <;> exact MadeOf.of_ascii (by decide)
  | finite negative m => exact madeOf_of_subset (render_finite_subset doubleWords negative m)

/-- The separators of a style are printable ASCII. -/
structure Style.Printable (style : Style) : Prop where
  items : ∀ c ∈ style.itemSeparator, c.IsPrintableAscii
  keys : ∀ c ∈ style.keySeparator, c.IsPrintableAscii

theorem Style.printable_unicode : unicode.Printable := ⟨by decide, by decide⟩

theorem Style.printable_compact : compact.Printable := ⟨by decide, by decide⟩

/-- Parts between printable brackets make a text of their kind. -/
theorem madeOf_bracketed {opening closing : Char}
    (hopening : (CodePoint.ofChar opening).IsPrintableAscii)
    (hclosing : (CodePoint.ofChar closing).IsPrintableAscii) {separator : Text}
    (hseparator : ∀ c ∈ separator, c.IsPrintableAscii) {parts : List Text}
    (h : ∀ p ∈ parts, MadeOf P p) : MadeOf P (bracketed opening closing separator parts) := by
  have hend : MadeOf P [CodePoint.ofChar closing] := MadeOf.nil.cons hclosing
  exact (((MadeOf.of_ascii hseparator).joined h).cons hopening).append hend

/-- Members are written with their keys and their values, in whatever order. -/
theorem madeOf_arranged {style : Style} (hstyle : style.Printable) {parts : List (Text × Text)}
    (h : ∀ m ∈ parts, (∀ c ∈ m.1, P c) ∧ MadeOf P m.2) :
    ∀ p ∈ arranged style parts, MadeOf P p := by
  have hmember : ∀ m ∈ parts,
      MadeOf P (writeString style.asciiOnly m.1 ++ style.keySeparator ++ m.2) := fun m hm =>
    ((madeOf_writeString _ (h m hm).1).append (MadeOf.of_ascii hstyle.keys)).append (h m hm).2
  refine List.forall_mem_map.mpr fun m hm => hmember m ?_
  split at hm
  · exact (sortMembers_perm parts).mem_iff.mp hm
  · exact hm

mutual

/-- A value is written with printable ASCII and the code points of its texts. -/
theorem madeOf_write {style : Style} (hstyle : style.Printable) :
    ∀ {v : Json}, TextsHold P v → MadeOf P (write style v)
  | null, _ => MadeOf.of_ascii (t := "null") (by decide)
  | bool true, _ => MadeOf.of_ascii (t := "true") (by decide)
  | bool false, _ => MadeOf.of_ascii (t := "false") (by decide)
  | int n, _ => madeOf_ofInt n
  | float x, _ => madeOf_render x
  | str _, h => madeOf_writeString _ h
  | arr _, h => madeOf_bracketed (by decide) (by decide) hstyle.items (madeOf_writeItems hstyle h)
  | obj _, h =>
    madeOf_bracketed (by decide) (by decide) hstyle.items
      (madeOf_arranged hstyle (madeOf_writeMembers hstyle h))

/-- The items of an array are written as texts of the kind that their strings have. -/
theorem madeOf_writeItems {style : Style} (hstyle : style.Printable) :
    ∀ {items : List Json}, ItemTextsHold P items → ∀ p ∈ writeItems style items, MadeOf P p
  | [], _ => List.forall_mem_nil _
  | _ :: _, h => List.forall_mem_cons.mpr ⟨madeOf_write hstyle h.1, madeOf_writeItems hstyle h.2⟩

theorem madeOf_writeMembers {style : Style} (hstyle : style.Printable) :
    ∀ {members : Members}, MemberTextsHold P members →
      ∀ m ∈ writeMembers style members, (∀ c ∈ m.1, P c) ∧ MadeOf P m.2
  | [], _ => List.forall_mem_nil _
  | _ :: _, h =>
    List.forall_mem_cons.mpr
      ⟨⟨h.1, madeOf_write hstyle h.2.1⟩, madeOf_writeMembers hstyle h.2.2⟩

end

/-- A value is written without control characters. -/
theorem controlFree_write {style : Style} (hstyle : style.Printable) (v : Json) :
    ControlFree (write style v) := by
  have htexts : TextsHold (fun _ => True) v := textsHold_of_forall (fun _ => trivial) v
  exact (madeOf_write hstyle htexts).controlFree

/-! ### Lone surrogates -/

/-- Every part is in what is joined. -/
theorem subset_joined {separator part : Text} {parts : List Text} (h : part ∈ parts) :
    part ⊆ joined separator parts := by
  match parts with
  | [p] =>
      obtain rfl := List.mem_singleton.mp h
      exact List.Subset.refl _
  | p :: q :: later =>
      rcases List.mem_cons.mp h with rfl | hlater
      · exact List.subset_append_of_subset_left _ (List.subset_append_left _ _)
      · exact List.subset_append_of_subset_right _ (subset_joined hlater)

/-- Every part is between the brackets. -/
theorem subset_bracketed {opening closing : Char} {separator part : Text} {parts : List Text}
    (h : part ∈ parts) : part ⊆ bracketed opening closing separator parts :=
  List.subset_append_of_subset_left _ (List.subset_cons_of_subset _ (subset_joined h))

/-- A lone surrogate is not escaped, unless everything is that is not ASCII. -/
theorem mem_writeString_of_isSurrogate {c : CodePoint} {t : Text} (hc : c ∈ t)
    (hlone : c.isSurrogate = true) : c ∈ writeString false t := by
  have hkept : escaped false c = [c] := by
    rw [CodePoint.isSurrogate, Bool.and_eq_true, decide_eq_true_iff, decide_eq_true_iff] at hlone
    simp [escaped, show c.val ≠ 0x22 by omega, show c.val ≠ 0x5C by omega,
      show c.val ≠ 0x08 by omega, show c.val ≠ 0x09 by omega, show c.val ≠ 0x0A by omega,
      show c.val ≠ 0x0C by omega, show c.val ≠ 0x0D by omega, show ¬ c.val < 0x20 by omega]
  have hbody : c ∈ t.flatMap (escaped false) :=
    List.mem_flatMap.mpr ⟨c, hc, hkept ▸ List.mem_singleton_self c⟩
  exact List.mem_append_left _ (List.mem_cons_of_mem _ hbody)

/-- A text has no lone surrogate that its string does not have. -/
theorem surrogateFree_of_writeString {t : Text}
    (h : ∀ c ∈ writeString false t, ¬ c.isSurrogate) : ∀ c ∈ t, ¬ c.isSurrogate :=
  fun c hc hlone => h c (mem_writeString_of_isSurrogate hc hlone) hlone

mutual

/-- A value has no lone surrogate that its written form does not have. -/
theorem surrogateFree_of_write : ∀ {v : Json},
    (∀ c ∈ write .unicode v, ¬ c.isSurrogate) → SurrogateFree v
  | null, _ => trivial
  | bool _, _ => trivial
  | int _, _ => trivial
  | float _, _ => trivial
  | str _, h => surrogateFree_of_writeString h
  | arr _, h =>
    surrogateFree_of_writeItems fun part hpart c hc => h c (subset_bracketed hpart hc)
  | obj members, h =>
    surrogateFree_of_writeMembers fun m hm => by
      have hpart : ∀ c ∈ writeString false m.1 ++ Text.ofString ": " ++ m.2, ¬ c.isSurrogate :=
        fun c hc => h c (subset_bracketed (List.mem_map_of_mem hm) hc)
      obtain ⟨hkey, hvalue⟩ := List.forall_mem_append.mp hpart
      exact ⟨(List.forall_mem_append.mp hkey).1, hvalue⟩

/-- Items that are written without surrogates hold none. -/
theorem surrogateFree_of_writeItems : ∀ {items : List Json},
    (∀ part ∈ writeItems .unicode items, ∀ c ∈ part, ¬ c.isSurrogate) →
      ItemTextsHold (fun c => ¬ c.isSurrogate) items
  | [], _ => trivial
  | _ :: _, h =>
    have hparts := List.forall_mem_cons.mp h
    ⟨surrogateFree_of_write hparts.1, surrogateFree_of_writeItems hparts.2⟩

theorem surrogateFree_of_writeMembers : ∀ {members : Members},
    (∀ m ∈ writeMembers .unicode members,
      (∀ c ∈ writeString false m.1, ¬ c.isSurrogate) ∧ ∀ c ∈ m.2, ¬ c.isSurrogate) →
      MemberTextsHold (fun c => ¬ c.isSurrogate) members
  | [], _ => trivial
  | _ :: _, h =>
    have hparts := List.forall_mem_cons.mp h
    ⟨surrogateFree_of_writeString hparts.1.1, surrogateFree_of_write hparts.1.2,
      surrogateFree_of_writeMembers hparts.2⟩

end

/-- **The written form has a lone surrogate if and only if the value has one.** -/
theorem surrogateFree_write_iff {v : Json} :
    (∀ c ∈ write .unicode v, ¬ c.isSurrogate) ↔ SurrogateFree v :=
  ⟨surrogateFree_of_write, fun h => (madeOf_write Style.printable_unicode h).surrogateFree⟩

/-! ### Lines -/

/-- A line feed after every part sets the parts apart. -/
theorem splitOn_lines {lines : List Text} (h : ∀ t ∈ lines, CodePoint.ofChar '\n' ∉ t) :
    splitOn (CodePoint.ofChar '\n') (lines.flatMap (· ++ Text.ofString "\n")) =
      lines ++ [[]] := by
  induction lines with
  | nil => rfl
  | cons t lines ih =>
      rw [List.forall_mem_cons] at h
      have hcut : (t :: lines).flatMap (· ++ Text.ofString "\n") =
          t ++ CodePoint.ofChar '\n' :: lines.flatMap (· ++ Text.ofString "\n") := by
        rw [List.flatMap_cons, List.append_assoc]
        rfl
      rw [hcut, splitOn_append_sep, splitOn_of_notMem h.1, ih h.2, List.cons_append,
        List.nil_append, List.cons_append]

end Json

end RecordLog
