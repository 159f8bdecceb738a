import RecordLog.Proofs.Json.Lines
import RecordLog.Proofs.Text.Utf8

/-!
# Pairs of surrogates

A reader takes the escapes of a first and a second half, side by side, for one code point.  So
from text without surrogates no string is read in which the two halves stand side by side
(`readString_joins`), and no value with such a string (`read_pairsJoined`).  What is decoded from
UTF-8 is such text.
-/

namespace RecordLog.Json

/-! ### Strings -/

/-- What is read from a text, if anything is, has no second half right behind a first half, and
starts with a second half only if the text starts with the escape of one. -/
def Joins (t : Text) (r : Reading Text) : Prop :=
  ∀ s rest, r = .ok (s, rest) →
    PairsJoined s ∧ ∀ c ∈ s.head?, isLowHalf c.val = true → ¬ Lone t

/-- A reading that fails joins nothing. -/
theorem Joins.error (t : Text) (e : ReadError) : Joins t (.error e) := nofun

section

variable {t u : Text} {r : Reading Text} {c : CodePoint}

/-- A code point joins what is read behind it, if it leaves no first half in front of a second
half and is no second half itself. -/
theorem Joins.pushPoint (h : Joins u r) (hhigh : isHighHalf c.val = true → Lone u)
    (hlow : isLowHalf c.val = true → ¬ Lone t) : Joins t (pushPoint c r) := by
  match r, h with
  | .error e, _ => exact Joins.error t e
  | .ok (s, rest), h =>
      rintro _ _ ⟨⟩
      obtain ⟨hjoined, hhead⟩ := h s rest rfl
      refine ⟨List.isChain_cons.mpr ⟨fun d hd hc => ?_, hjoined⟩, ?_⟩
      · rw [← Bool.not_eq_true]
        exact fun hd' => hhead d hd hd' (hhigh hc)
      · rintro _ ⟨⟩
        exact hlow

/-- A code point that is no half joins whatever is read behind it. -/
theorem Joins.push_plain (h : Joins u r) (hc : ¬ c.isSurrogate) : Joins t (Json.pushPoint c r) := by
  rw [Text.isSurrogate_iff] at hc
  refine h.pushPoint (fun hhigh => ?_) fun hlow => ?_
  · rw [isHighHalf_iff] at hhigh
    omega
  · rw [isLowHalf_iff] at hlow
    omega

theorem hexDigit?_lt {d : Nat} (h : c.hexDigit? = some d) : d < 16 := by
  unfold CodePoint.hexDigit? at h
  grind

theorem hexQuad?_lt {p q s d : CodePoint} {n : Nat} (h : hexQuad? p q s d = some n) :
    n < 0x10000 := by
  unfold hexQuad? at h
  split at h
  · next hp hq hs hd =>
      have hp := hexDigit?_lt hp
      have hq := hexDigit?_lt hq
      have hs := hexDigit?_lt hs
      have hd := hexDigit?_lt hd
      have hn := Option.some.inj h
      omega
  · cases h

/-- The number of an escape joins what is read behind the escape, if a first half is alone. -/
theorem Joins.push_unit {b e p q s d x : CodePoint} {n : Nat} {rest : Text}
    (h : Joins (x :: rest) r) (hb : b.val = 0x5C) (he : e.val = 0x75)
    (hquad : hexQuad? p q s d = some n) (hlone : isHighHalf n = true → Lone (x :: rest)) :
    Joins (b :: e :: p :: q :: s :: d :: x :: rest)
      (Json.pushPoint (CodePoint.ofNatOr n '\uFFFD') r) := by
  have hval : (CodePoint.ofNatOr n '\uFFFD').val = n := by
    have hn := hexQuad?_lt hquad
    rw [CodePoint.ofNatOr, dif_pos (by omega)]
  have hfollower : follower (b :: e :: p :: q :: s :: d :: x :: rest) = .escape n (x :: rest) := by
    simp only [follower, hb, he, and_self, if_true, hquad]
  rw [← hval] at hlone
  refine h.pushPoint hlone fun hlow => ?_
  rw [hval] at hlow
  rintro (hother | ⟨m, after, hescape, hm⟩)
  · rw [hfollower] at hother
    cases hother
  · obtain ⟨rfl, -⟩ := Follower.escape.inj (hfollower.symm.trans hescape)
    exact Bool.false_ne_true (hm.symm.trans hlow)

end

/-- A letter behind a backslash never stands for a surrogate. -/
theorem not_isSurrogate_of_shortEscape? {l c : CodePoint} (h : shortEscape? l = some c) :
    ¬ c.isSurrogate := by
  have hcontrol : ¬ (CodePoint.ofChar '\x08').isSurrogate ∧
      ¬ (CodePoint.ofChar '\x0C').isSurrogate ∧ ¬ (CodePoint.ofChar '\n').isSurrogate ∧
      ¬ (CodePoint.ofChar '\r').isSurrogate ∧ ¬ (CodePoint.ofChar '\t').isSurrogate := by
    decide
  have hl := lt_of_shortEscape? h
  unfold shortEscape? at h
  split at h
  · obtain rfl := Option.some.inj h
    rw [Text.isSurrogate_iff]
    omega
  · grind

/-- The code point of a pair is no surrogate. -/
theorem not_isSurrogate_pairPoint {n m : Nat} (hn : isHighHalf n = true)
    (hm : isLowHalf m = true) : ¬ (pairPoint n m).isSurrogate := by
  rw [isHighHalf_iff] at hn
  rw [isLowHalf_iff] at hm
  rw [pairPoint, CodePoint.ofNatOr, dif_pos (by omega), Text.isSurrogate_iff]
  dsimp only
  omega

/-- The end of a text without surrogates has none. -/
theorem not_surrogate_of_suffix {s t : Text} (ht : ∀ c ∈ t, ¬ c.isSurrogate) (hs : s <:+ t) :
    ∀ c ∈ s, ¬ c.isSurrogate :=
  fun c hc => ht c (hs.subset hc)

/-- The halves that are read from text without surrogates are joined. -/
theorem readString_joins {t : Text} (ht : ∀ c ∈ t, ¬ c.isSurrogate) (fuel : Nat) :
    Joins t (readString fuel t) := by
  fun_induction readString fuel t with
  | case3 =>
      rintro _ _ ⟨⟩
      exact ⟨.nil, fun c hc => absurd hc (Option.not_mem_none c)⟩
  | case7 fuel b _ _ e _ p q r s x rest n _ hn m after hfollower hm ih =>
      refine (ih ?_).push_plain (not_isSurrogate_pairPoint hn hm)
      exact not_surrogate_of_suffix ht
        ((follower_suffix hfollower).trans ⟨[b, e, p, q, r, s], rfl⟩)
  | case8 fuel b _ hb e he p q r s x rest n hquad _ m after hescape hlow ih =>
      have hlone : Lone (x :: rest) := .inr ⟨m, after, hescape, Bool.eq_false_iff.mpr hlow⟩
      refine (ih ?_).push_unit hb he hquad fun _ => hlone
      exact not_surrogate_of_suffix ht ⟨[b, e, p, q, r, s], rfl⟩
  | case9 fuel b _ hb e he p q r s x rest n hquad _ hother ih =>
      refine (ih ?_).push_unit hb he hquad fun _ => .inl hother
      exact not_surrogate_of_suffix ht ⟨[b, e, p, q, r, s], rfl⟩
  | case10 fuel b _ hb e he p q r s x rest n hquad hlow ih =>
      refine (ih ?_).push_unit hb he hquad fun hhigh => absurd hhigh hlow
      exact not_surrogate_of_suffix ht ⟨[b, e, p, q, r, s], rfl⟩
  | case13 fuel b _ _ e t _ c hescape ih =>
      refine (ih ?_).push_plain (not_isSurrogate_of_shortEscape? hescape)
      exact not_surrogate_of_suffix ht ⟨[b, e], rfl⟩
  | case15 _ c t _ _ _ ih =>
      obtain ⟨hc, ht⟩ := List.forall_mem_cons.mp ht
      exact (ih ht).push_plain hc
  | _ => exact Joins.error _ _

/-! ### Values -/

/-- An atom holds no text. -/
theorem eachText_of_isAtom {K : Text → Prop} {v : Json} (h : v.isAtom) : EachText K v := by
  cases v with
  | str | arr | obj => cases h
  | _ => trivial

/-- The texts of an object that was read are those of the members read. -/
theorem eachText_ofList {K : Text → Prop} {members : Members}
    (h : ∀ kv ∈ members, K kv.1 ∧ EachText K kv.2) :
    EachText K (obj (Members.ofList members)) := by
  refine eachMemberText_iff.mpr fun kv hkv => ?_
  exact h kv ((Members.mem_setAll hkv).resolve_left List.not_mem_nil)

/-- Readers keep pairs joined in text without surrogates. -/
theorem keeps_pairsJoined :
    Keeps (fun t => ∀ c ∈ t, ¬ c.isSurrogate) PairsJoined (EachText PairsJoined) where
  suffix := not_surrogate_of_suffix
  string ht fuel s rest hs := (readString_joins ht fuel s rest hs).1
  atom _ v rest hv := eachText_of_isAtom (readAtom_gives _ v rest hv).2
  str ht := ht
  arr hitems := eachItemText_iff.mpr hitems
  obj hmembers := eachText_ofList hmembers

/-- **What text without surrogates gives has no two halves of a pair side by side.** -/
theorem read_pairsJoined {t : Text} (ht : ∀ c ∈ t, ¬ c.isSurrogate) {v : Json}
    (h : read t = .ok v) : EachText PairsJoined v :=
  keeps_pairsJoined.read ht h

/-- Some text without surrogates gives the value. -/
def Given (v : Json) : Prop :=
  ∃ t : Text, (∀ c ∈ t, ¬ c.isSurrogate) ∧ read t = .ok v

/-- A value without surrogates that can be read is given by a text. -/
theorem given_of_surrogateFree {v : Json} (h : Readable v) (hfree : SurrogateFree v) : Given v :=
  ⟨write .unicode v, (madeOf_write Style.printable_unicode hfree).surrogateFree, read_write h⟩

theorem Given.readable {v : Json} (h : Given v) : Readable v := by
  obtain ⟨t, -, hread⟩ := h
  exact read_readable hread

/-- The halves in a value that is given are joined. -/
theorem Given.pairsJoined {v : Json} (h : Given v) : EachText PairsJoined v := by
  obtain ⟨t, ht, hread⟩ := h
  exact read_pairsJoined ht hread

end RecordLog.Json
