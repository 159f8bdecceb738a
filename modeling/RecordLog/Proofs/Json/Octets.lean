import RecordLog.Json.Octets
import RecordLog.Proofs.Json.Lines
import RecordLog.Proofs.Json.RoundTrip
import RecordLog.Proofs.Text.Utf8

/-!
# Reading documents from octets

Every text is read back from its octets in UTF-8, lone surrogates included
(`readUtf8?_encodeUtf8`).  The reader finds out by itself that a document is in UTF-8
(`detect_encodeUtf8`), so a written document is read from its octets (`readOctets_write`).
-/

namespace RecordLog

namespace Encoding

/-! ### UTF-8 -/

/-- A code point is put ahead if the octets in front are its own. -/
theorem ahead?_utf8Octets {front : Octets} {n : Nat} {c : CodePoint}
    (hfront : Text.utf8Octets c = front) (hn : n = c.val) (later : Option Text) :
    ahead? front n later = later.map (c :: ·) := by
  have hpoint : CodePoint.ofNatOr n '\uFFFD' = c := by
    rw [hn]
    exact dif_pos c.isLt
  rw [ahead?, hpoint]
  exact if_pos hfront

/-- The octets of a code point are read as the code point. -/
theorem readUtf8?_utf8Octets (c : CodePoint) (rest : Octets) :
    readUtf8? (Text.utf8Octets c ++ rest) = (readUtf8? rest).map (c :: ·) := by
  have hlt := c.isLt
  obtain ⟨front, hfront⟩ : ∃ front, Text.utf8Octets c = front := ⟨_, rfl⟩
  have hoctets := hfront
  unfold Text.utf8Octets at hfront
  simp only at hfront
  rw [hoctets]
  -- One case for each number of octets.  The lead octet tells the reader which one it is.
  split at hfront
  · next h1 =>
      have ha := Text.toNat_ofNat_octet (n := c.val) (by omega)
      subst hfront
      rw [List.singleton_append, readUtf8?.eq_def]
      simp only [ha, if_pos h1]
      exact ahead?_utf8Octets hoctets rfl _
  · split at hfront
    · next h1 h2 =>
        have ha := Text.toNat_ofNat_octet (n := 0xC0 + c.val / 0x40) (by omega)
        have hb := Text.toNat_ofNat_octet (n := 0x80 + c.val % 0x40) (by omega)
        have hone : ¬ 0xC0 + c.val / 0x40 < 0x80 := by omega
        have htwo : 0xC0 + c.val / 0x40 < 0xE0 := by omega
        subst hfront
        rw [List.cons_append, List.singleton_append, readUtf8?.eq_def]
        simp only [ha, if_neg hone, if_pos htwo, Text.tailBits, hb]
        exact ahead?_utf8Octets hoctets (by omega) _
    · split at hfront
      · next h1 h2 h3 =>
          have ha := Text.toNat_ofNat_octet (n := 0xE0 + c.val / 0x1000) (by omega)
          have hb := Text.toNat_ofNat_octet (n := 0x80 + c.val / 0x40 % 0x40) (by omega)
          have hc := Text.toNat_ofNat_octet (n := 0x80 + c.val % 0x40) (by omega)
          have hone : ¬ 0xE0 + c.val / 0x1000 < 0x80 := by omega
          have htwo : ¬ 0xE0 + c.val / 0x1000 < 0xE0 := by omega
          have hthree : 0xE0 + c.val / 0x1000 < 0xF0 := by omega
          subst hfront
          rw [List.cons_append, List.cons_append, List.singleton_append, readUtf8?.eq_def]
          simp only [ha, if_neg hone, if_neg htwo, if_pos hthree, Text.tailBits, hb, hc]
          exact ahead?_utf8Octets hoctets (by omega) _
      · next h1 h2 h3 =>
          have ha := Text.toNat_ofNat_octet (n := 0xF0 + c.val / 0x40000) (by omega)
          have hb := Text.toNat_ofNat_octet (n := 0x80 + c.val / 0x1000 % 0x40) (by omega)
          have hc := Text.toNat_ofNat_octet (n := 0x80 + c.val / 0x40 % 0x40) (by omega)
          have hd := Text.toNat_ofNat_octet (n := 0x80 + c.val % 0x40) (by omega)
          have hone : ¬ 0xF0 + c.val / 0x40000 < 0x80 := by omega
          have htwo : ¬ 0xF0 + c.val / 0x40000 < 0xE0 := by omega
          have hthree : ¬ 0xF0 + c.val / 0x40000 < 0xF0 := by omega
          subst hfront
          rw [List.cons_append, List.cons_append, List.cons_append, List.singleton_append,
            readUtf8?.eq_def]
          simp only [ha, if_neg hone, if_neg htwo, if_neg hthree, Text.tailBits, hb, hc, hd]
          exact ahead?_utf8Octets hoctets (by omega) _

/-- **A text is read back from its octets.** -/
theorem readUtf8?_encodeUtf8 (t : Text) : readUtf8? t.encodeUtf8 = some t := by
  induction t with
  | nil => rfl
  | cons c t ih => rw [Text.encodeUtf8_cons, readUtf8?_utf8Octets, ih, Option.map_some]

/-! ### Detection -/

/-- A mark starts with a zero or with an octet that is not ASCII. -/
theorem not_isPrefixOf_of_mem_marks {mark : Octets × Encoding} (hmark : mark ∈ marks) {a : UInt8}
    (ha : a.toNat < 0x80) (hzero : a ≠ 0) (rest : Octets) :
    ¬ mark.1.isPrefixOf (a :: rest) := by
  have hheads : ∀ m ∈ marks, m.1 ≠ [] ∧ (m.1.headD 0 = 0 ∨ 0x80 ≤ (m.1.headD 0).toNat) := by
    decide
  obtain ⟨hne, hhead⟩ := hheads mark hmark
  obtain ⟨octets, encoding⟩ := mark
  cases octets with
  | nil => exact absurd rfl hne
  | cons b octets =>
      have hdiffers : b ≠ a := by
        intro hsame
        subst hsame
        rcases hhead with hnull | hhigh
        · exact hzero hnull
        · exact absurd ha (Nat.not_lt.mpr hhigh)
      simp [List.isPrefixOf, hdiffers]

/-- Octets that start like ASCII and hold no zero are found to be in UTF-8. -/
theorem detect_cons {a : UInt8} {rest : Octets} (ha : a.toNat < 0x80) (hzero : 0 ∉ a :: rest) :
    detect (a :: rest) = (utf8, a :: rest) := by
  have hfirst : a ≠ 0 := fun h => hzero (h ▸ List.mem_cons_self)
  have hnone : marks.find? (fun mark => mark.1.isPrefixOf (a :: rest)) = none := by
    refine List.find?_eq_none.mpr ?_
    intro mark hmark
    exact not_isPrefixOf_of_mem_marks hmark ha hfirst rest
  have hzeros : ofZeros (a :: rest) = utf8 := by
    cases rest with
    | nil => rfl
    | cons b rest =>
        have hsecond : b ≠ 0 := by
          intro hnull
          subst hnull
          exact hzero (List.mem_cons_of_mem a List.mem_cons_self)
        cases rest with
        | nil => simp only [ofZeros, if_neg hfirst, if_neg hsecond]
        | cons c rest =>
            cases rest with
            | nil => rfl
            | cons d rest => simp only [ofZeros, if_neg hfirst, if_neg hsecond]
  rw [detect, hnone, hzeros]

/-- A text that starts with an ASCII character and has no zero is found to be in UTF-8. -/
theorem detect_encodeUtf8 {c : CodePoint} (hc : c.val < 0x80) {later : Text}
    (hzero : ∀ d ∈ c :: later, d.val ≠ 0) :
    detect (Text.encodeUtf8 (c :: later)) = (utf8, Text.encodeUtf8 (c :: later)) := by
  have hnone : (0 : UInt8) ∉ Text.encodeUtf8 (c :: later) := by
    intro hmem
    have hnull : (⟨0, by decide⟩ : CodePoint) ∈ c :: later :=
      (Text.mem_encodeUtf8 (c := ⟨0, by decide⟩) (by decide)).mp hmem
    exact hzero _ hnull rfl
  have hoctet : (UInt8.ofNat c.val).toNat < 0x80 := by
    rw [Text.toNat_ofNat_octet (by omega)]
    exact hc
  rw [Text.encodeUtf8_cons, Text.utf8Octets_of_lt hc] at hnone ⊢
  exact detect_cons hoctet hnone

end Encoding

namespace Json

/-! ### Documents -/

/-- A text that starts with an ASCII character and has no zero is read from its octets as it is
read. -/
theorem readOctets_encodeUtf8 {c : CodePoint} (hc : c.val < 0x80) {later : Text}
    (hzero : ∀ d ∈ c :: later, d.val ≠ 0) :
    readOctets (Text.encodeUtf8 (c :: later)) = (read (c :: later)).mapError .unreadable := by
  rw [readOctets, Encoding.detect_encodeUtf8 hc hzero]
  simp only [Encoding.read?, Encoding.readUtf8?_encodeUtf8]

/-- A written object is read from its octets. -/
theorem readOctets_write {members : Members} (h : Readable (.obj members)) :
    readOctets (Text.encodeUtf8 (write .unicode (.obj members))) = .ok (.obj members) := by
  have hfree : ControlFree (write .unicode (.obj members)) :=
    controlFree_write Style.printable_unicode _
  have hzero : ∀ d ∈ write .unicode (.obj members), d.val ≠ 0 := by
    intro d hd hnull
    have hlow := hfree d hd
    omega
  have hread : read (write .unicode (.obj members)) = .ok (.obj members) := read_write h
  obtain ⟨later, hlater⟩ :
      ∃ later, write .unicode (.obj members) = CodePoint.ofChar '\x7b' :: later := ⟨_, rfl⟩
  rw [hlater] at hzero hread ⊢
  rw [readOctets_encodeUtf8 (by decide) hzero, hread]
  rfl

end Json

end RecordLog
