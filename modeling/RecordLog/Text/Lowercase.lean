import RecordLog.Text
import RecordLog.Text.Letters

/-!
# Lower case

Every capital becomes its small letter, with two exceptions.  The dotted
capital I (U+0130) becomes a small i followed by a combining dot.  The capital
sigma (U+03A3) becomes a final sigma at the end of a word: when a cased letter
precedes it and none follows, code points that are transparent to case being
looked past on both sides.

`lowercase_append_blocker` is the law that makes lower case local: a code point
that is neither cased nor transparent, such as a space, separates a text into
two sides that are mapped independently.
-/

namespace RecordLog.Text

/-- Whether the nearest code point that is not transparent to case has case. -/
def meetsCased (t : Text) : Bool :=
  match t.dropWhile isCaseTransparent with
  | [] => false
  | c :: _ => isCased c

/-- The lower case of one code point.  `before` is what precedes it, nearest
first, and `after` is what follows it. -/
def lowercaseAt (before : Text) (c : CodePoint) (after : Text) : Text :=
  if c.val = 0x130 then ['i', '\u0307']
  else if c.val = 0x3A3 then
    if meetsCased before && !meetsCased after then ['ς'] else ['σ']
  else [smallLetter c]

/-- The lower case of a text that follows `before`, which is given nearest
first. -/
def lowercaseAfter (before : Text) : Text → Text
  | [] => []
  | c :: after => lowercaseAt before c after ++ lowercaseAfter (c :: before) after

/-- The lower case of a text. -/
def lowercase (t : Text) : Text :=
  lowercaseAfter [] t

/-! ### Locality -/

/-- A code point that ends the search for a cased neighbour without being one. -/
def IsBlocker (c : CodePoint) : Prop :=
  isCased c = false ∧ isCaseTransparent c = false

/-- The search for a cased letter stops at a blocker, so what follows it does not matter. -/
theorem meetsCased_append_blocker {b : CodePoint} (hb : IsBlocker b) (s t : Text) :
    meetsCased (s ++ b :: t) = meetsCased s := by
  induction s with
  | nil => simp [meetsCased, List.dropWhile, hb.1, hb.2]
  | cons c s ih =>
    cases hc : isCaseTransparent c <;> simp [meetsCased, List.dropWhile, hc]
    simpa [meetsCased] using ih

/-- The lower case of a code point does not depend on what follows a later blocker. -/
theorem lowercaseAt_append_blocker {b : CodePoint} (hb : IsBlocker b)
    (before : Text) (c : CodePoint) (s t : Text) :
    lowercaseAt before c (s ++ b :: t) = lowercaseAt before c s := by
  simp only [lowercaseAt, meetsCased_append_blocker hb]

/-- The lower case of a code point does not depend on what precedes an earlier blocker. -/
theorem lowercaseAt_before_blocker {b : CodePoint} (hb : IsBlocker b)
    (before outer : Text) (c : CodePoint) (after : Text) :
    lowercaseAt (before ++ b :: outer) c after = lowercaseAt before c after := by
  simp only [lowercaseAt, meetsCased_append_blocker hb]

/-- What stands before a blocker does not reach past it. -/
theorem lowercaseAfter_before_blocker {b : CodePoint} (hb : IsBlocker b)
    (before outer t : Text) :
    lowercaseAfter (before ++ b :: outer) t = lowercaseAfter before t := by
  induction t generalizing before with
  | nil => rfl
  | cons c t ih =>
    simp only [lowercaseAfter, lowercaseAt_before_blocker hb]
    rw [← List.cons_append, ih]

/-- A blocker cuts a text in two parts that are lowered apart. -/
theorem lowercaseAfter_append_blocker {b : CodePoint} (hb : IsBlocker b)
    (before s t : Text) :
    lowercaseAfter before (s ++ b :: t) =
      lowercaseAfter before s ++ lowercaseAt [] b [] ++ lowercaseAfter [] t := by
  induction s generalizing before with
  | nil =>
    have hcross : lowercaseAt before b t = lowercaseAt [] b [] := by
      by_cases hs : b.val = 0x3A3
      · have : isCased b = true := by
          simp only [isCased, hs]; decide
        rw [hb.1] at this; cases this
      · simp [lowercaseAt, hs]
    have := lowercaseAfter_before_blocker hb [] before t
    simp only [List.nil_append] at this
    simp [lowercaseAfter, hcross, this]
  | cons c s ih =>
    simp only [List.cons_append, lowercaseAfter, lowercaseAt_append_blocker hb, ih]
    simp [List.append_assoc]

/-- The two sides of a blocker have their lower case each on its own. -/
theorem lowercase_append_blocker {b : CodePoint} (hb : IsBlocker b) (s t : Text) :
    lowercase (s ++ b :: t) = lowercase s ++ lowercaseAt [] b [] ++ lowercase t :=
  lowercaseAfter_append_blocker hb [] s t

end RecordLog.Text
