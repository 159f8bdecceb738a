import Mathlib.Data.List.Basic
import RecordLog.Text.Utf8

/-!
# Reading UTF-8 undoes writing it

Every code point that is no lone surrogate is read back from its octets, and nothing
else is read from any octets.

* A `Form` is a way in which one to four octets stand for a number.  A reading is a
  sequence of forms (`decodeUtf8_of_form`, `exists_form_of_decodeUtf8`), and a code
  point has just one form unless it is a surrogate (`form_utf8Octets`,
  `utf8Octets_of_form`);
* `decodeUtf8_eq_ok_iff` follows: octets are read as a text if they are the encoding
  of this text, and the text holds no surrogate.  `exists_decodeUtf8_iff` says the same
  without the text;
* `mem_encodeUtf8` and `head?_encodeUtf8` say that ASCII code points show in the
  octets as they are, so that lines and their marks can be told before anything is
  decoded.
-/

namespace RecordLog.Text

/-- Octets that are the encoding of a text without lone surrogates. -/
def IsUtf8 (octets : Octets) : Prop :=
  ∃ t : Text, encodeUtf8 t = octets ∧ ∀ c ∈ t, ¬ c.isSurrogate

/-! ### Octets -/

theorem isTail_iff {b : UInt8} : isTail b ↔ 0x80 ≤ b.toNat ∧ b.toNat < 0xC0 := by
  simp [isTail]

/-- A second octet is a later one, with a narrower range behind four of the first octets. -/
theorem isSecond_iff {a b : UInt8} :
    isSecond a b ↔ (0x80 ≤ b.toNat ∧ b.toNat < 0xC0) ∧
      (a.toNat = 0xE0 → 0xA0 ≤ b.toNat) ∧ (a.toNat = 0xED → b.toNat < 0xA0) ∧
      (a.toNat = 0xF0 → 0x90 ≤ b.toNat) ∧ (a.toNat = 0xF4 → b.toNat < 0x90) := by
  simp only [isSecond, Bool.and_eq_true, Bool.or_eq_true, isTail_iff, bne_iff_ne, decide_eq_true_eq]
  omega

theorem isSurrogate_iff {c : CodePoint} : c.isSurrogate ↔ 0xD800 ≤ c.val ∧ c.val ≤ 0xDFFF := by
  simp [CodePoint.isSurrogate]

theorem toNat_ofNat_octet {n : Nat} (h : n < 0x100) : (UInt8.ofNat n).toNat = n := by
  rw [UInt8.toNat_ofNat']
  exact Nat.mod_eq_of_lt h

/-- The number of an octet gives the octet again. -/
theorem ofNat_eq_of_eq_toNat {n : Nat} {b : UInt8} (h : n = b.toNat) : UInt8.ofNat n = b := by
  rw [h, UInt8.ofNat_toNat]

/-! ### Forms -/

/-- The octets of one code point, and its number. -/
inductive Form : Octets → Nat → Prop
  | one {a : UInt8} {n : Nat} (ha : a.toNat < 0x80) (hn : n = a.toNat) : Form [a] n
  | two {a b : UInt8} {n : Nat} (ha : 0xC2 ≤ a.toNat) (ha' : a.toNat < 0xE0) (hb : isSecond a b)
      (hn : n = (a.toNat % 0x20) * 0x40 + tailBits b) : Form [a, b] n
  | three {a b c : UInt8} {n : Nat} (ha : 0xE0 ≤ a.toNat) (ha' : a.toNat < 0xF0)
      (hb : isSecond a b) (hc : isTail c)
      (hn : n = ((a.toNat % 0x10) * 0x40 + tailBits b) * 0x40 + tailBits c) : Form [a, b, c] n
  | four {a b c d : UInt8} {n : Nat} (ha : 0xF0 ≤ a.toNat) (ha' : a.toNat < 0xF5)
      (hb : isSecond a b) (hc : isTail c) (hd : isTail d)
      (hn : n = (((a.toNat % 0x08) * 0x40 + tailBits b) * 0x40 + tailBits c) * 0x40 + tailBits d) :
      Form [a, b, c, d] n

/-- A form at the front of octets is read as its number. -/
theorem decodeUtf8_of_form {front : Octets} {n : Nat} (h : Form front n) (rest : Octets) :
    decodeUtf8 (front ++ rest) = ahead n (decodeUtf8 rest) := by
  cases h with
  | @one a _ ha hn =>
      change decodeUtf8 (a :: rest) = _
      rw [decodeUtf8.eq_def]
      simp only [ha, if_true, hn]
  | @two a b n ha ha' hb hn =>
      have hone : ¬ a.toNat < 0x80 := by omega
      have hstart : ¬ (a.toNat < 0xC2 ∨ 0xF5 ≤ a.toNat) := by omega
      change decodeUtf8 (a :: b :: rest) = _
      rw [decodeUtf8.eq_def]
      simp [hone, hstart, hb, ha', hn]
  | @three a b c n ha ha' hb hc hn =>
      have hone : ¬ a.toNat < 0x80 := by omega
      have hstart : ¬ (a.toNat < 0xC2 ∨ 0xF5 ≤ a.toNat) := by omega
      have htwo : ¬ a.toNat < 0xE0 := by omega
      change decodeUtf8 (a :: b :: c :: rest) = _
      rw [decodeUtf8.eq_def]
      simp [hone, hstart, hb, hc, htwo, ha', hn]
  | @four a b c d n ha ha' hb hc hd hn =>
      have hone : ¬ a.toNat < 0x80 := by omega
      have hstart : ¬ (a.toNat < 0xC2 ∨ 0xF5 ≤ a.toNat) := by omega
      have htwo : ¬ a.toNat < 0xE0 := by omega
      have hthree : ¬ a.toNat < 0xF0 := by omega
      change decodeUtf8 (a :: b :: c :: d :: rest) = _
      rw [decodeUtf8.eq_def]
      simp [hone, hstart, hb, hc, hd, htwo, hthree, hn]

/-- Octets that can be read start with a form. -/
theorem exists_form_of_decodeUtf8 {octets : Octets} {t : Text} (hne : octets ≠ [])
    (h : decodeUtf8 octets = .ok t) :
    ∃ front n rest, octets = front ++ rest ∧ Form front n ∧
      ahead n (decodeUtf8 rest) = .ok t := by
  unfold decodeUtf8 at h
  split at h
  · exact absurd rfl hne
  · next a rest =>
    split at h
    · next ha => exact ⟨[a], _, rest, rfl, .one ha rfl, h⟩
    · split at h
      · cases h
      · next hstart =>
        simp only [Bool.or_eq_true, decide_eq_true_eq, not_or, Nat.not_lt, Nat.not_le] at hstart
        split at h
        · cases h
        · next b rest =>
          split at h
          · cases h
          · next hb =>
            simp only [Bool.not_eq_true', Bool.not_eq_false] at hb
            split at h
            · next htwo => exact ⟨[a, b], _, rest, rfl, .two hstart.1 htwo hb rfl, h⟩
            · next htwo =>
              split at h
              · cases h
              · next c rest =>
                split at h
                · cases h
                · next hc =>
                  simp only [Bool.not_eq_true', Bool.not_eq_false] at hc
                  split at h
                  · next hthree =>
                    exact ⟨[a, b, c], _, rest, rfl,
                      .three (Nat.not_lt.mp htwo) hthree hb hc rfl, h⟩
                  · next hthree =>
                    split at h
                    · cases h
                    · next d rest =>
                      split at h
                      · cases h
                      · next hd =>
                        simp only [Bool.not_eq_true', Bool.not_eq_false] at hd
                        exact ⟨[a, b, c, d], _, rest, rfl,
                          .four (Nat.not_lt.mp hthree) hstart.2 hb hc hd rfl, h⟩

/-- The form of a code point has its number in the range of code points. -/
theorem lt_of_form {front : Octets} {n : Nat} (h : Form front n) : n < 0x110000 := by
  cases h with
  | one ha hn => omega
  | two ha ha' hb hn => simp only [tailBits] at hn; omega
  | three ha ha' hb hc hn => simp only [tailBits] at hn; omega
  | four ha ha' hb hc hd hn => rw [isSecond_iff] at hb; simp only [tailBits] at hn; omega

/-- The octets of a code point are a form of it, unless it is a surrogate. -/
theorem form_utf8Octets {c : CodePoint} (hc : ¬ c.isSurrogate) : Form (utf8Octets c) c.val := by
  have hlt := c.isLt
  rw [isSurrogate_iff] at hc
  unfold utf8Octets
  simp only
  split
  · next h1 => exact .one (by rw [toNat_ofNat_octet] <;> omega) (by rw [toNat_ofNat_octet]; omega)
  · split
    · next h1 h2 =>
      have ha := toNat_ofNat_octet (n := 0xC0 + c.val / 0x40) (by omega)
      have hb := toNat_ofNat_octet (n := 0x80 + c.val % 0x40) (by omega)
      refine .two ?_ ?_ (isSecond_iff.mpr ?_) ?_ <;> simp only [tailBits, ha, hb] <;> omega
    · split
      · next h1 h2 h3 =>
        have ha := toNat_ofNat_octet (n := 0xE0 + c.val / 0x1000) (by omega)
        have hb := toNat_ofNat_octet (n := 0x80 + c.val / 0x40 % 0x40) (by omega)
        have hc := toNat_ofNat_octet (n := 0x80 + c.val % 0x40) (by omega)
        refine .three ?_ ?_ (isSecond_iff.mpr ?_) (isTail_iff.mpr ?_) ?_ <;>
          simp only [tailBits, ha, hb, hc] <;> omega
      · next h1 h2 h3 =>
        have ha := toNat_ofNat_octet (n := 0xF0 + c.val / 0x40000) (by omega)
        have hb := toNat_ofNat_octet (n := 0x80 + c.val / 0x1000 % 0x40) (by omega)
        have hc := toNat_ofNat_octet (n := 0x80 + c.val / 0x40 % 0x40) (by omega)
        have hd := toNat_ofNat_octet (n := 0x80 + c.val % 0x40) (by omega)
        refine .four ?_ ?_ (isSecond_iff.mpr ?_) (isTail_iff.mpr ?_) (isTail_iff.mpr ?_) ?_ <;>
          simp only [tailBits, ha, hb, hc, hd] <;> omega

/-- A form determines the octets of its code point, which is no surrogate. -/
theorem utf8Octets_of_form {front : Octets} {c : CodePoint} (h : Form front c.val) :
    utf8Octets c = front ∧ ¬ c.isSurrogate := by
  rw [isSurrogate_iff]
  cases h with
  | @one a _ ha hn =>
      refine ⟨?_, by omega⟩
      rw [utf8Octets, if_pos (by omega), hn, UInt8.ofNat_toNat]
  | @two a b _ ha ha' hb hn =>
      rw [isSecond_iff] at hb
      simp only [tailBits] at hn
      refine ⟨?_, by omega⟩
      rw [utf8Octets, if_neg (by omega), if_pos (by omega),
        ofNat_eq_of_eq_toNat (b := a) (by omega), ofNat_eq_of_eq_toNat (b := b) (by omega)]
  | @three a b d _ ha ha' hb hd hn =>
      rw [isSecond_iff] at hb
      rw [isTail_iff] at hd
      simp only [tailBits] at hn
      refine ⟨?_, by omega⟩
      rw [utf8Octets, if_neg (by omega), if_neg (by omega), if_pos (by omega),
        ofNat_eq_of_eq_toNat (b := a) (by omega), ofNat_eq_of_eq_toNat (b := b) (by omega),
        ofNat_eq_of_eq_toNat (b := d) (by omega)]
  | @four a b d e _ ha ha' hb hd he hn =>
      rw [isSecond_iff] at hb
      rw [isTail_iff] at hd he
      simp only [tailBits] at hn
      refine ⟨?_, by omega⟩
      rw [utf8Octets, if_neg (by omega), if_neg (by omega), if_neg (by omega),
        ofNat_eq_of_eq_toNat (b := a) (by omega), ofNat_eq_of_eq_toNat (b := b) (by omega),
        ofNat_eq_of_eq_toNat (b := d) (by omega), ofNat_eq_of_eq_toNat (b := e) (by omega)]

/-! ### Texts -/

/-- A code point stands in front of a text exactly if its number was decoded, and the text behind
it. -/
theorem ahead_eq_ok_iff {n : Nat} (hn : n < 0x110000) {later : Except Malformation Text}
    {c : CodePoint} {t : Text} : ahead n later = .ok (c :: t) ↔ c.val = n ∧ later = .ok t := by
  rw [ahead, CodePoint.ofNatOr, dif_pos hn]
  cases later with
  | error m => simp [Except.map]
  | ok u =>
      obtain ⟨m, hm⟩ := c
      simp [Except.map, eq_comm]

theorem encodeUtf8_cons (c : CodePoint) (t : Text) :
    encodeUtf8 (c :: t) = utf8Octets c ++ encodeUtf8 t :=
  rfl

/-- **Octets are read as a text** if they are the encoding of the text, and the text
holds no lone surrogate. -/
theorem decodeUtf8_eq_ok_iff {octets : Octets} {t : Text} :
    decodeUtf8 octets = .ok t ↔ encodeUtf8 t = octets ∧ ∀ c ∈ t, ¬ c.isSurrogate := by
  induction t generalizing octets with
  | nil =>
      constructor
      · intro h
        by_cases hne : octets = []
        · exact ⟨hne.symm, nofun⟩
        · obtain ⟨_, n, rest, _, _, hahead⟩ := exists_form_of_decodeUtf8 hne h
          cases hrest : decodeUtf8 rest <;> rw [hrest] at hahead <;> cases hahead
      · rintro ⟨rfl, _⟩
        rfl
  | cons c t ih =>
      rw [encodeUtf8_cons, List.forall_mem_cons]
      constructor
      · intro h
        have hne : octets ≠ [] := by
          rintro rfl
          cases h
        obtain ⟨front, n, rest, rfl, hform, hahead⟩ := exists_form_of_decodeUtf8 hne h
        obtain ⟨rfl, hrest⟩ := (ahead_eq_ok_iff (lt_of_form hform)).mp hahead
        obtain ⟨hfront, hc⟩ := utf8Octets_of_form hform
        obtain ⟨rfl, ht⟩ := ih.mp hrest
        exact ⟨congrArg (· ++ encodeUtf8 t) hfront, hc, ht⟩
      · rintro ⟨rfl, hc, ht⟩
        rw [decodeUtf8_of_form (form_utf8Octets hc), ih.mpr ⟨rfl, ht⟩]
        exact (ahead_eq_ok_iff c.isLt).mpr ⟨rfl, rfl⟩

/-- Octets can be decoded exactly if they are UTF-8. -/
theorem exists_decodeUtf8_iff {octets : Octets} :
    (∃ t, decodeUtf8 octets = .ok t) ↔ IsUtf8 octets := by
  simp only [decodeUtf8_eq_ok_iff, IsUtf8]

/-! ### ASCII -/

/-- An ASCII code point is one octet. -/
theorem utf8Octets_of_lt {c : CodePoint} (hc : c.val < 0x80) : utf8Octets c = [.ofNat c.val] := by
  rw [utf8Octets, if_pos hc]

theorem utf8Octets_ne_nil (c : CodePoint) : utf8Octets c ≠ [] := by
  unfold utf8Octets
  simp only
  split
  · simp
  · split
    · simp
    · split <;> simp

/-- No octet of a code point past ASCII is ASCII. -/
theorem le_toNat_of_mem_utf8Octets {c : CodePoint} (hc : 0x80 ≤ c.val) {b : UInt8}
    (hb : b ∈ utf8Octets c) : 0x80 ≤ b.toNat := by
  have hlt := c.isLt
  have htail : ∀ n, n < 0x40 → 0x80 ≤ (UInt8.ofNat (0x80 + n)).toNat := by
    intro n hn
    rw [toNat_ofNat_octet (by omega)]
    omega
  have hlead : ∀ n, 0x80 ≤ n → n < 0x100 → 0x80 ≤ (UInt8.ofNat n).toNat := by
    intro n hn hn'
    rw [toNat_ofNat_octet hn']
    exact hn
  rw [utf8Octets, if_neg (by omega)] at hb
  split at hb
  · simp only [List.mem_cons, List.not_mem_nil, or_false] at hb
    rcases hb with rfl | rfl
    · exact hlead _ (by omega) (by omega)
    · exact htail _ (by omega)
  · split at hb
    · simp only [List.mem_cons, List.not_mem_nil, or_false] at hb
      rcases hb with rfl | rfl | rfl
      · exact hlead _ (by omega) (by omega)
      · exact htail _ (by omega)
      · exact htail _ (by omega)
    · simp only [List.mem_cons, List.not_mem_nil, or_false] at hb
      rcases hb with rfl | rfl | rfl | rfl
      · exact hlead _ (by omega) (by omega)
      · exact htail _ (by omega)
      · exact htail _ (by omega)
      · exact htail _ (by omega)

/-- The octet of an ASCII code point is in no other code point. -/
theorem mem_utf8Octets {c d : CodePoint} (hc : c.val < 0x80) :
    UInt8.ofNat c.val ∈ utf8Octets d ↔ d = c := by
  constructor
  · intro h
    have hval := toNat_ofNat_octet (n := c.val) (by omega)
    by_cases hd : d.val < 0x80
    · rw [utf8Octets_of_lt hd, List.mem_singleton] at h
      have heq := congrArg UInt8.toNat h
      rw [hval, toNat_ofNat_octet (by omega)] at heq
      obtain ⟨m, _⟩ := c
      obtain ⟨n, _⟩ := d
      simp_all
    · have hle := le_toNat_of_mem_utf8Octets (Nat.not_lt.mp hd) h
      omega
  · rintro rfl
    rw [utf8Octets_of_lt hc]
    exact List.mem_singleton_self _

/-- The octet of an ASCII code point stands for nothing else. -/
theorem mem_encodeUtf8 {c : CodePoint} (hc : c.val < 0x80) {t : Text} :
    UInt8.ofNat c.val ∈ encodeUtf8 t ↔ c ∈ t := by
  rw [encodeUtf8, List.mem_flatMap]
  simp only [mem_utf8Octets hc, exists_eq_right]

/-- Octets start with that of an ASCII code point if their text starts with it. -/
theorem head?_encodeUtf8 {c : CodePoint} (hc : c.val < 0x80) {t : Text} :
    (encodeUtf8 t).head? = some (UInt8.ofNat c.val) ↔ t.head? = some c := by
  cases t with
  | nil => exact ⟨nofun, nofun⟩
  | cons d t =>
      rw [encodeUtf8_cons, List.head?_cons, Option.some.injEq]
      constructor
      · intro h
        rw [List.head?_append_of_ne_nil _ (utf8Octets_ne_nil d)] at h
        exact (mem_utf8Octets hc).mp (List.mem_of_mem_head? h)
      · rintro rfl
        rw [utf8Octets_of_lt hc]
        rfl

end RecordLog.Text
