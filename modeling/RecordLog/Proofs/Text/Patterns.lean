import RecordLog.Text

/-!
# Patterns and what they match

A pattern may match at the front of a text in several ways, since a run of code points can end
early and an optional part can be left out.  `Pattern.tries` gives them in order of preference:
the longest run first, and leaving a part out last.  A match is the first of them, so a part
that took too much gives way to its next choice.

`Pattern.mem_tries_iff` says which matches are tried, whatever their order: those of a text that
fits the pattern (`Pattern.Fits`).  A pattern that fits a text in one way only can be used
without a look at the order.
-/

namespace RecordLog

/-- A pattern for texts. -/
inductive Pattern where
  /-- One code point of a class. -/
  | point (p : CodePoint → Bool)
  /-- Code points of a class, as many as possible. -/
  | many (p : CodePoint → Bool)
  /-- One pattern after another. -/
  | both (first second : Pattern)
  /-- A pattern, if possible. -/
  | perhaps (body : Pattern)
  /-- A pattern; the text that it takes is kept as a group with a number. -/
  | kept (number : Nat) (body : Pattern)

/-- A match at the front of a text. -/
structure Match where
  /-- What the match takes. -/
  taken : Text
  /-- The groups that are kept. -/
  groups : List (Nat × Text)
  /-- What follows the match. -/
  rest : Text

namespace Match

/-- The text of a group, if the match has it. -/
def group? (m : Match) (number : Nat) : Option Text :=
  m.groups.lookup number

/-- A match that takes nothing. -/
def nothing (t : Text) : Match :=
  ⟨[], [], t⟩

/-- One match after another. -/
def andThen (m n : Match) : Match :=
  ⟨m.taken ++ n.taken, m.groups ++ n.groups, n.rest⟩

/-- A match with a code point before it. -/
def push (c : CodePoint) (m : Match) : Match :=
  { m with taken := c :: m.taken }

/-- A match that keeps what it takes. -/
def keep (number : Nat) (m : Match) : Match :=
  { m with groups := (number, m.taken) :: m.groups }

end Match

namespace Pattern

/-- The runs of a class at the front of a text, the longest first. -/
def runs (p : CodePoint → Bool) : Text → List Match
  | [] => [.nothing []]
  | c :: t => (if p c then (runs p t).map (Match.push c) else []) ++ [.nothing (c :: t)]

/-- The matches at the front of a text, in order of preference. -/
def tries : Pattern → Text → List Match
  | point _, [] => []
  | point p, c :: t => if p c then [⟨[c], [], t⟩] else []
  | many p, t => runs p t
  | both first second, t => (first.tries t).flatMap fun m => (second.tries m.rest).map m.andThen
  | perhaps body, t => body.tries t ++ [.nothing t]
  | kept number body, t => (body.tries t).map (Match.keep number)

/-- A text fits a pattern, with the groups that are kept of it. -/
inductive Fits : Pattern → Text → List (Nat × Text) → Prop
  | point {p : CodePoint → Bool} {c : CodePoint} (h : p c = true) : Fits (.point p) [c] []
  | many {p : CodePoint → Bool} {t : Text} (h : ∀ c ∈ t, p c = true) : Fits (.many p) t []
  | both {first second : Pattern} {s t : Text} {groups later : List (Nat × Text)}
      (hfirst : Fits first s groups) (hsecond : Fits second t later) :
      Fits (.both first second) (s ++ t) (groups ++ later)
  | present {body : Pattern} {t : Text} {groups : List (Nat × Text)} (h : Fits body t groups) :
      Fits (.perhaps body) t groups
  | absent {body : Pattern} : Fits (.perhaps body) [] []
  | kept {number : Nat} {body : Pattern} {t : Text} {groups : List (Nat × Text)}
      (h : Fits body t groups) : Fits (.kept number body) t ((number, t) :: groups)

section

variable {p : CodePoint → Bool} {first second body : Pattern} {number : Nat} {t : Text}
  {groups : List (Nat × Text)}

/-- A class fits one code point of its own, and keeps no group. -/
theorem fits_point_iff : (point p).Fits t groups ↔ (∃ c, p c = true ∧ t = [c]) ∧ groups = [] := by
  constructor
  · rintro (_ | _)
    next c hc => exact ⟨⟨c, hc, rfl⟩, rfl⟩
  · rintro ⟨⟨c, hc, rfl⟩, rfl⟩
    exact .point hc

/-- A code point fits the class of itself. -/
theorem Fits.point_self (c : CodePoint) : (Pattern.point (· == c)).Fits [c] [] :=
  .point (beq_self_eq_true c)

/-- A run of a class fits any code points of the class, and keeps no group. -/
theorem fits_many_iff : (many p).Fits t groups ↔ (∀ c ∈ t, p c = true) ∧ groups = [] := by
  constructor
  · rintro (_ | _)
    next hclass => exact ⟨hclass, rfl⟩
  · rintro ⟨hclass, rfl⟩
    exact .many hclass

/-- Two patterns in a row fit two texts in a row, and keep the groups of both. -/
theorem fits_both_iff : (both first second).Fits t groups ↔
    ∃ s u taken later, first.Fits s taken ∧ second.Fits u later ∧
      t = s ++ u ∧ groups = taken ++ later := by
  constructor
  · intro h
    cases h with
    | both hfirst hsecond => exact ⟨_, _, _, _, hfirst, hsecond, rfl, rfl⟩
  · rintro ⟨s, u, taken, later, hfirst, hsecond, rfl, rfl⟩
    exact .both hfirst hsecond

/-- An optional pattern fits what its body does, or the empty text. -/
theorem fits_perhaps_iff :
    (perhaps body).Fits t groups ↔ body.Fits t groups ∨ t = [] ∧ groups = [] := by
  constructor
  · intro h
    cases h with
    | present h => exact .inl h
    | absent => exact .inr ⟨rfl, rfl⟩
  · rintro (h | ⟨rfl, rfl⟩)
    · exact .present h
    · exact .absent

/-- A kept pattern fits what its body does, and keeps the text in front of the groups in it. -/
theorem fits_kept_iff : (kept number body).Fits t groups ↔
    ∃ later, body.Fits t later ∧ groups = (number, t) :: later := by
  constructor
  · intro h
    cases h with
    | kept h => exact ⟨_, h, rfl⟩
  · rintro ⟨later, h, rfl⟩
    exact .kept h

end

/-- The runs are all the ways to take code points of a class from the front. -/
theorem mem_runs_iff {p : CodePoint → Bool} {t : Text} {m : Match} :
    m ∈ runs p t ↔ ((∀ c ∈ m.taken, p c = true) ∧ m.groups = []) ∧ m.taken ++ m.rest = t := by
  induction t generalizing m with
  | nil =>
      obtain ⟨taken, groups, rest⟩ := m
      simp only [runs, Match.nothing, List.mem_singleton, Match.mk.injEq, List.append_eq_nil_iff]
      constructor
      · rintro ⟨rfl, rfl, rfl⟩
        exact ⟨⟨List.forall_mem_nil _, rfl⟩, rfl, rfl⟩
      · rintro ⟨⟨_, hgroups⟩, htaken, hrest⟩
        exact ⟨htaken, hgroups, hrest⟩
  | cons c t ih =>
      obtain ⟨taken, groups, rest⟩ := m
      rw [runs, List.mem_append, List.mem_singleton]
      constructor
      · rintro (h | h)
        · split at h
          · next hc =>
              obtain ⟨n, hn, heq⟩ := List.mem_map.mp h
              obtain ⟨⟨hclass, hgroups⟩, rfl⟩ := ih.mp hn
              cases heq
              exact ⟨⟨List.forall_mem_cons.mpr ⟨hc, hclass⟩, hgroups⟩, rfl⟩
          · cases h
        · cases h
          exact ⟨⟨List.forall_mem_nil _, rfl⟩, rfl⟩
      · rintro ⟨⟨hclass, hgroups⟩, htext⟩
        cases taken with
        | nil =>
            obtain rfl : groups = [] := hgroups
            obtain rfl : rest = c :: t := htext
            exact .inr rfl
        | cons d taken =>
            obtain ⟨rfl, rfl⟩ := List.cons.inj htext
            obtain ⟨hd, hclass⟩ := List.forall_mem_cons.mp hclass
            left
            rw [if_pos hd]
            exact List.mem_map.mpr ⟨⟨taken, groups, rest⟩, ih.mpr ⟨⟨hclass, hgroups⟩, rfl⟩, rfl⟩

/-- The matches that are tried are those of texts that fit. -/
theorem mem_tries_iff {pattern : Pattern} {t : Text} {m : Match} :
    m ∈ pattern.tries t ↔ pattern.Fits m.taken m.groups ∧ m.taken ++ m.rest = t := by
  induction pattern generalizing t m with
  | point p =>
      obtain ⟨taken, groups, rest⟩ := m
      rw [fits_point_iff]
      constructor
      · intro h
        cases t with
        | nil => cases h
        | cons c t =>
            rw [tries] at h
            split at h
            · next hc =>
                cases List.mem_singleton.mp h
                exact ⟨⟨⟨c, hc, rfl⟩, rfl⟩, rfl⟩
            · cases h
      · rintro ⟨⟨⟨c, hc, rfl⟩, rfl⟩, rfl⟩
        rw [List.singleton_append, tries, if_pos hc]
        exact List.mem_singleton_self _
  | many p => rw [tries, mem_runs_iff, fits_many_iff]
  | both first second hfirst hsecond =>
      simp only [tries, List.mem_flatMap, List.mem_map, fits_both_iff]
      constructor
      · rintro ⟨a, ha, b, hb, rfl⟩
        obtain ⟨hafits, rfl⟩ := hfirst.mp ha
        obtain ⟨hbfits, hrest⟩ := hsecond.mp hb
        refine ⟨⟨_, _, _, _, hafits, hbfits, rfl, rfl⟩, ?_⟩
        rw [Match.andThen, List.append_assoc, hrest]
      · obtain ⟨_, _, rest⟩ := m
        rintro ⟨⟨s, t, groups, later, ha, hb, rfl, rfl⟩, rfl⟩
        exact ⟨⟨s, groups, t ++ rest⟩, hfirst.mpr ⟨ha, (List.append_assoc s t rest).symm⟩,
          ⟨t, later, rest⟩, hsecond.mpr ⟨hb, rfl⟩, rfl⟩
  | perhaps body ih =>
      rw [tries, List.mem_append, List.mem_singleton, ih, fits_perhaps_iff]
      constructor
      · rintro (⟨hfits, htext⟩ | rfl)
        · exact ⟨.inl hfits, htext⟩
        · exact ⟨.inr ⟨rfl, rfl⟩, rfl⟩
      · obtain ⟨taken, groups, rest⟩ := m
        rintro ⟨hbody | ⟨rfl, rfl⟩, htext⟩
        · exact .inl ⟨hbody, htext⟩
        · exact .inr (congrArg Match.nothing htext)
  | kept number body ih =>
      simp only [tries, List.mem_map, fits_kept_iff]
      constructor
      · rintro ⟨n, hn, rfl⟩
        obtain ⟨hfits, htext⟩ := ih.mp hn
        exact ⟨⟨_, hfits, rfl⟩, htext⟩
      · rintro ⟨⟨groups, hbody, hgroups⟩, htext⟩
        refine ⟨⟨m.taken, groups, m.rest⟩, ih.mpr ⟨hbody, htext⟩, ?_⟩
        change (⟨m.taken, (number, m.taken) :: groups, m.rest⟩ : Match) = m
        rw [← hgroups]

/-! ### Replacing matches -/

/-- The match at the front of a text. -/
def first? (pattern : Pattern) (t : Text) : Option Match :=
  (pattern.tries t).head?

/-- No match takes nothing. -/
def Advances (pattern : Pattern) : Prop :=
  ∀ t groups, pattern.Fits t groups → t ≠ []

variable {pattern : Pattern} {t : Text} {m : Match}

/-- What the first match takes fits the pattern. -/
theorem fits_of_first? (h : pattern.first? t = some m) :
    pattern.Fits m.taken m.groups ∧ m.taken ++ m.rest = t :=
  mem_tries_iff.mp (List.mem_of_mem_head? h)

/-- Where something fits there is a match. -/
theorem exists_first? {groups : List (Nat × Text)} (h : pattern.Fits t groups) (rest : Text) :
    ∃ m, pattern.first? (t ++ rest) = some m := by
  have hmem : (⟨t, groups, rest⟩ : Match) ∈ pattern.tries (t ++ rest) := mem_tries_iff.mpr ⟨h, rfl⟩
  rw [first?]
  cases htries : pattern.tries (t ++ rest) with
  | nil =>
      rw [htries] at hmem
      cases hmem
  | cons m later => exact ⟨m, rfl⟩

/-- A match leaves less than the whole text. -/
theorem Advances.length_rest (hpattern : pattern.Advances) (h : pattern.first? t = some m) :
    m.rest.length < t.length := by
  obtain ⟨hfits, rfl⟩ := fits_of_first? h
  have htaken := List.length_pos_iff.mpr (hpattern _ _ hfits)
  rw [List.length_append]
  omega

/-- A text in which the matches of a pattern give way to other texts.  They are found from left
to right, each one where the one before it ends, and what stands between them is copied. -/
def substitute (pattern : Pattern) (hpattern : pattern.Advances) (value : Match → Text)
    (t : Text) : Text :=
  match _h : pattern.first? t with
  | some m => value m ++ substitute pattern hpattern value m.rest
  | none =>
    match t with
    | [] => []
    | c :: later => c :: substitute pattern hpattern value later
termination_by t.length
decreasing_by
  · exact hpattern.length_rest _h
  · simp

/-- A match gives way to its value, and substitution goes on behind it. -/
theorem substitute_of_first? (hpattern : pattern.Advances) (value : Match → Text)
    (h : pattern.first? t = some m) :
    pattern.substitute hpattern value t = value m ++ pattern.substitute hpattern value m.rest := by
  rw [substitute]
  split
  · next h' =>
      rw [h] at h'
      cases h'
      rfl
  · next h' =>
      rw [h] at h'
      cases h'

/-- Nothing is substituted in the empty text. -/
theorem substitute_nil (hpattern : pattern.Advances) (value : Match → Text) :
    pattern.substitute hpattern value [] = [] := by
  rw [substitute]
  split
  · next h => exact absurd (hpattern.length_rest h) (Nat.not_lt_zero _)
  · rfl

/-- Where nothing matches a code point is copied. -/
theorem substitute_cons (hpattern : pattern.Advances) (value : Match → Text) {c : CodePoint}
    (h : pattern.first? (c :: t) = none) :
    pattern.substitute hpattern value (c :: t) = c :: pattern.substitute hpattern value t := by
  rw [substitute]
  split
  · next h' =>
      rw [h] at h'
      cases h'
  · rfl

end Pattern

end RecordLog
