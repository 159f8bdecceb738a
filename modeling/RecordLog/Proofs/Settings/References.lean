import Mathlib.Data.List.Infix
import RecordLog.Proofs.Text.Patterns
import RecordLog.Settings.Reference

/-!
# References in one scan

How references are spelled (`Reference.Spells`), and how one scan divides a text into references
and code points (`Scan`): a reference is taken wherever one begins, the scan goes on behind it,
and everything else is copied.  A text is divided in one way only, whatever the environment
holds, and replacing the references means giving the value of each part (`Scan.expanded_eq`).

References are found where a pattern matches (`Reference.pattern`).  The pattern fits just the
spellings (`pattern_fits`), and at the front of a text there is at most one spelling, so it does
not matter in which order the pattern tries its matches: replacing its matches from left to
right is replacing the references (`expanded_eq_substitute`).
-/

namespace RecordLog

namespace Text

/-- A text is cut at the first of its separators. -/
theorem cutAt?_eq_some_iff {sep : CodePoint} {t before after : Text} :
    cutAt? sep t = some (before, after) ↔ sep ∉ before ∧ before ++ sep :: after = t := by
  induction t generalizing before with
  | nil => exact iff_of_false nofun fun h =>
      List.append_ne_nil_of_right_ne_nil before (List.cons_ne_nil sep after) h.2
  | cons c t ih =>
      rw [cutAt?]
      split
      · next hc =>
          subst hc
          simp only [Option.some.injEq, Prod.mk.injEq]
          constructor
          · rintro ⟨rfl, rfl⟩
            exact ⟨List.not_mem_nil, rfl⟩
          · rintro ⟨hsep, htext⟩
            cases before with
            | nil => exact ⟨rfl, (List.cons.inj htext).2.symm⟩
            | cons d before =>
                obtain ⟨rfl, _⟩ := List.cons.inj htext
                exact absurd List.mem_cons_self hsep
      · next hc =>
          simp only [Option.map_eq_some_iff, Prod.exists, Prod.mk.injEq]
          constructor
          · rintro ⟨start, rest, hcut, rfl, rfl⟩
            obtain ⟨hsep, rfl⟩ := ih.mp hcut
            exact ⟨mt List.mem_cons.mp (not_or.mpr ⟨Ne.symm hc, hsep⟩), rfl⟩
          · rintro ⟨hsep, htext⟩
            cases before with
            | nil => exact absurd (List.cons.inj htext).1.symm hc
            | cons d before =>
                obtain ⟨rfl, hrest⟩ := List.cons.inj htext
                exact ⟨before, after, ih.mpr ⟨mt (List.mem_cons_of_mem d) hsep, hrest⟩, rfl, rfl⟩

end Text

namespace Reference

/-! ### How references are spelled -/

/-- What a reference ends with. -/
abbrev closing : CodePoint := CodePoint.ofChar '\x7D'

/-- What stands between a name and a fallback. -/
abbrev bar : CodePoint := CodePoint.ofChar '|'

/-- A name of a variable in a reference. -/
def IsName (name : Text) : Prop :=
  name ≠ [] ∧ ∀ c ∈ name, c ≠ closing ∧ c ≠ bar

/-- How a reference with a given fallback goes on after its name. -/
inductive Ends : Text → Text → Prop
  | bare : Ends [] [closing]
  | barred {fallback : Text} (h : closing ∉ fallback) :
      Ends fallback (bar :: (fallback ++ [closing]))

/-- A text spells a reference: an opening, a name, and an end. -/
inductive Spells : Reference → Text → Prop
  | mk {r : Reference} {ending : Text} (hname : IsName r.name) (hend : Ends r.fallback ending) :
      Spells r (opening ++ r.name ++ ending)

variable {r : Reference} {t rest name : Text}

/-- Anything but a brace or a bar may be part of a name. -/
theorem isNamePoint_iff {c : CodePoint} : isNamePoint c = true ↔ c ≠ closing ∧ c ≠ bar := by
  rw [isNamePoint, Bool.and_eq_true, bne_iff_ne, bne_iff_ne]

/-- An end begins with what cannot be part of a name. -/
theorem Ends.exists_cons {fallback ending : Text} (h : Ends fallback ending) :
    ∃ c later, ending = c :: later ∧ isNamePoint c = false := by
  cases h with
  | bare => exact ⟨closing, [], rfl, by decide⟩
  | barred _ => exact ⟨bar, _, rfl, by decide⟩

/-- An end is read exactly if one is spelled where the name ends. -/
theorem readEnd?_eq_some_iff {later fallback : Text}
    (hlater : ∀ c ∈ later.head?, isNamePoint c = false) :
    readEnd? later = some (fallback, rest) ↔
      ∃ ending, Ends fallback ending ∧ ending ++ rest = later := by
  cases later with
  | nil =>
      refine iff_of_false nofun ?_
      rintro ⟨ending, hend, htext⟩
      obtain ⟨c, later, rfl, _⟩ := hend.exists_cons
      cases htext
  | cons c t =>
      have hc : c = closing ∨ c = bar := by
        by_contra hne
        have hpoint := isNamePoint_iff.mpr (not_or.mp hne)
        rw [hlater c rfl] at hpoint
        cases hpoint
      rcases hc with rfl | rfl
      · rw [readEnd?, if_pos rfl, Option.some.injEq, Prod.mk.injEq]
        constructor
        · rintro ⟨rfl, rfl⟩
          exact ⟨_, .bare, rfl⟩
        · rintro ⟨ending, hend, htext⟩
          cases hend with
          | bare => exact ⟨rfl, (List.cons.inj htext).2.symm⟩
          | barred _ => exact absurd (List.cons.inj htext).1 (by decide)
      · -- a fallback ends at the first closing brace, so only one end can follow the bar
        rw [readEnd?, if_neg (by decide), Text.cutAt?_eq_some_iff]
        constructor
        · rintro ⟨hfallback, rfl⟩
          exact ⟨_, .barred hfallback, by simp⟩
        · rintro ⟨ending, hend, htext⟩
          cases hend with
          | bare => exact absurd (List.cons.inj htext).1 (by decide)
          | barred hfallback =>
              obtain ⟨_, rfl⟩ := List.cons.inj htext
              exact ⟨hfallback, by simp⟩

/-- A run of name points ends where another code point follows. -/
theorem run_split {later : Text} (hname : ∀ c ∈ name, isNamePoint c = true)
    (hlater : ∀ c ∈ later.head?, isNamePoint c = false) :
    (name ++ later).takeWhile isNamePoint = name ∧
      (name ++ later).dropWhile isNamePoint = later := by
  rw [List.takeWhile_append_of_pos hname, List.dropWhile_append_of_pos hname]
  cases later with
  | nil => exact ⟨List.append_nil name, rfl⟩
  | cons c later =>
      have hc : ¬ isNamePoint c = true := ne_true_of_eq_false (hlater c rfl)
      rw [List.takeWhile_cons_of_neg hc, List.dropWhile_cons_of_neg hc, List.append_nil]
      exact ⟨rfl, rfl⟩

/-- What follows an opening is read exactly if a name and an end are spelled there. -/
theorem readBody?_eq_some_iff :
    readBody? t = some (r, rest) ↔
      IsName r.name ∧ ∃ ending, Ends r.fallback ending ∧ r.name ++ (ending ++ rest) = t := by
  obtain ⟨name, fallback⟩ := r
  constructor
  · intro h
    have hsplit : t.takeWhile isNamePoint ++ t.dropWhile isNamePoint = t :=
      List.takeWhile_append_dropWhile
    have hpoints : ∀ c ∈ t.takeWhile isNamePoint, isNamePoint c = true :=
      List.all_eq_true.mp List.all_takeWhile
    have hlater : ∀ c ∈ (t.dropWhile isNamePoint).head?, isNamePoint c = false := by
      intro c hc
      have hhead := List.head?_dropWhile_not isNamePoint t
      rwa [Option.mem_def.mp hc] at hhead
    rw [readBody?] at h
    split at h
    · cases h
    · next d later hname =>
        obtain ⟨⟨F, after⟩, hend, heq⟩ := Option.map_eq_some_iff.mp h
        cases heq
        obtain ⟨ending, hends, htext⟩ := (readEnd?_eq_some_iff hlater).mp hend
        rw [hname] at hpoints hsplit
        refine ⟨⟨List.cons_ne_nil d later, fun c hc => isNamePoint_iff.mp (hpoints c hc)⟩,
          ending, hends, ?_⟩
        rw [htext, hsplit]
  · rintro ⟨⟨hne, hpoints⟩, ending, hend, rfl⟩
    have hlater : ∀ c ∈ (ending ++ rest).head?, isNamePoint c = false := by
      obtain ⟨d, later, rfl, hd⟩ := hend.exists_cons
      rintro c ⟨⟩
      exact hd
    obtain ⟨htake, hdrop⟩ := run_split (fun c hc => isNamePoint_iff.mpr (hpoints c hc)) hlater
    obtain ⟨d, later, rfl⟩ := List.exists_cons_of_ne_nil hne
    rw [readBody?, htake, hdrop]
    exact Option.map_eq_some_iff.mpr
      ⟨(fallback, rest), (readEnd?_eq_some_iff hlater).mpr ⟨ending, hend, rfl⟩, rfl⟩

/-- What is read at the front of a text is a reference that is spelled there. -/
theorem read?_eq_some_iff :
    read? t = some (r, rest) ↔ ∃ text, Spells r text ∧ text ++ rest = t := by
  rw [read?, Option.bind_eq_some_iff]
  constructor
  · rintro ⟨body, hopening, hbody⟩
    obtain ⟨hname, ending, hend, rfl⟩ := readBody?_eq_some_iff.mp hbody
    refine ⟨_, .mk hname hend, ?_⟩
    rw [← Text.dropStart?_eq_some_iff.mp hopening, List.append_assoc, List.append_assoc]
  · rintro ⟨text, ⟨hname, hend⟩, rfl⟩
    refine ⟨_, Text.dropStart?_eq_some_iff.mpr ?_, readBody?_eq_some_iff.mpr ⟨hname, _, hend, rfl⟩⟩
    rw [List.append_assoc, List.append_assoc]

/-- No reference is read exactly if none is spelled at the front of the text. -/
theorem read?_eq_none_iff : read? t = none ↔ ∀ r text, Spells r text → ¬ text <+: t := by
  constructor
  · rintro h r text hspells ⟨rest, rfl⟩
    have hread : read? (text ++ rest) = some (r, rest) := read?_eq_some_iff.mpr ⟨text, hspells, rfl⟩
    rw [h] at hread
    cases hread
  · intro h
    cases hread : read? t with
    | none => rfl
    | some found =>
        obtain ⟨text, hspells, htext⟩ := read?_eq_some_iff.mp hread
        exact absurd ⟨found.2, htext⟩ (h found.1 text hspells)

/-- At the front of a text at most one reference is spelled. -/
theorem Spells.unique {r' : Reference} {text text' rest rest' : Text} (h : Spells r text)
    (h' : Spells r' text') (htext : text ++ rest = text' ++ rest') :
    r = r' ∧ text = text' ∧ rest = rest' := by
  have hread := read?_eq_some_iff.mpr ⟨text, h, htext⟩
  rw [read?_eq_some_iff.mpr ⟨text', h', rfl⟩] at hread
  cases hread
  exact ⟨rfl, List.append_cancel_right htext, rfl⟩

theorem Ends.closing_mem {fallback ending : Text} (h : Ends fallback ending) :
    closing ∈ ending := by
  cases h with
  | bare => exact List.mem_singleton_self closing
  | barred _ =>
      exact List.mem_cons_of_mem _ (List.mem_append_right _ (List.mem_singleton_self closing))

theorem Spells.closing_mem {text : Text} (h : Spells r text) : closing ∈ text := by
  cases h with
  | mk _ hend => exact List.mem_append_right _ hend.closing_mem

/-! ### One scan -/

/-- A part of a text: a code point that is copied, or a reference with its spelling. -/
inductive Piece where
  | copied (c : CodePoint)
  | reference (r : Reference) (text : Text)

/-- The text of a part. -/
def Piece.source : Piece → Text
  | copied c => [c]
  | reference _ text => text

/-- What a part gives way to. -/
def Piece.output (env : Environment) : Piece → Text
  | copied c => [c]
  | reference r _ => r.value env

/-- A scan of a text from left to right.  Where a reference is spelled it is taken as a whole;
elsewhere one code point is copied. -/
inductive Scan : Text → List Piece → Prop
  | done : Scan [] []
  | reference {r : Reference} {text rest : Text} {ps : List Piece} (h : Spells r text)
      (later : Scan rest ps) : Scan (text ++ rest) (.reference r text :: ps)
  | copied {c : CodePoint} {rest : Text} {ps : List Piece}
      (h : ∀ r text, Spells r text → ¬ text <+: c :: rest) (later : Scan rest ps) :
      Scan (c :: rest) (.copied c :: ps)

end Reference

namespace Text

variable {r : Reference} {t rest : Text}

/-- A reference gives way to its value, and expansion goes on behind it. -/
theorem expanded_of_read? (env : Environment) (h : Reference.read? t = some (r, rest)) :
    t.expanded env = r.value env ++ rest.expanded env := by
  rw [expanded]
  split
  · next r' rest' h' =>
      rw [h] at h'
      cases h'
      rfl
  · next h' =>
      rw [h] at h'
      cases h'

/-- Nothing is expanded in the empty text. -/
theorem expanded_nil (env : Environment) : expanded env [] = [] := by
  rw [expanded]
  rfl

/-- Where no reference is read a code point is copied. -/
theorem expanded_cons (env : Environment) {c : CodePoint}
    (h : Reference.read? (c :: t) = none) : expanded env (c :: t) = c :: t.expanded env := by
  rw [expanded]
  split
  · next h' =>
      rw [h] at h'
      cases h'
  · rfl

end Text

namespace Reference

variable {r : Reference} {t : Text} {ps : List Piece}

/-- Every text can be scanned. -/
theorem exists_scan (t : Text) : ∃ ps, Scan t ps := by
  induction t using Text.expanded.induct with
  | case1 t r rest h ih =>
      obtain ⟨text, hspells, rfl⟩ := read?_eq_some_iff.mp h
      obtain ⟨ps, hps⟩ := ih
      exact ⟨_, .reference hspells hps⟩
  | case2 => exact ⟨[], .done⟩
  | case3 c later h ih =>
      obtain ⟨ps, hps⟩ := ih
      exact ⟨_, .copied (read?_eq_none_iff.mp h) hps⟩

theorem Spells.ne_nil {text : Text} (h : Spells r text) : text ≠ [] := by
  cases h with
  | mk _ _ => exact List.cons_ne_nil _ _

/-- A text is divided in one way only. -/
theorem Scan.unique {qs : List Piece} (h : Scan t ps) (h' : Scan t qs) : qs = ps := by
  induction h generalizing qs with
  | done =>
      generalize ht : ([] : Text) = t at h'
      cases h' with
      | done => rfl
      | reference hspells _ =>
          exact absurd (List.append_eq_nil_iff.mp ht.symm).1 hspells.ne_nil
      | copied _ _ => cases ht
  | @reference r text rest ps hspells _ ih =>
      generalize ht : text ++ rest = t at h'
      cases h' with
      | done => exact absurd (List.append_eq_nil_iff.mp ht).1 hspells.ne_nil
      | reference hspells' later =>
          obtain ⟨rfl, rfl, rfl⟩ := hspells.unique hspells' ht
          rw [ih later]
      | copied hnone _ => exact absurd ⟨rest, ht⟩ (hnone r text hspells)
  | @copied c rest ps hnone _ ih =>
      generalize ht : c :: rest = t at h'
      cases h' with
      | done => cases ht
      | reference hspells _ => exact absurd ⟨_, ht.symm⟩ (hnone _ _ hspells)
      | copied _ later =>
          cases ht
          rw [ih later]

/-- The parts of a text make it up. -/
theorem Scan.source_eq (h : Scan t ps) : ps.flatMap Piece.source = t := by
  induction h with
  | done => rfl
  | reference _ _ ih => rw [List.flatMap_cons, ih, Piece.source]
  | copied _ _ ih => rw [List.flatMap_cons, ih, Piece.source, List.singleton_append]

/-- Replacing the references in a text puts the value of each part in its place. -/
theorem Scan.expanded_eq (h : Scan t ps) (env : Environment) :
    t.expanded env = ps.flatMap (Piece.output env) := by
  induction h with
  | done => exact Text.expanded_nil env
  | @reference r text rest ps hspells _ ih =>
      have hread : read? (text ++ rest) = some (r, rest) :=
        read?_eq_some_iff.mpr ⟨text, hspells, rfl⟩
      rw [Text.expanded_of_read? env hread, ih, List.flatMap_cons, Piece.output]
  | copied hnone _ ih =>
      rw [Text.expanded_cons env (read?_eq_none_iff.mpr hnone), ih, List.flatMap_cons,
        Piece.output, List.singleton_append]

/-- What spells no reference anywhere stays as it is. -/
theorem expanded_of_no_spelling (env : Environment)
    (h : ∀ r text, Spells r text → ¬ text <:+: t) : t.expanded env = t := by
  induction t with
  | nil => exact Text.expanded_nil env
  | cons c t ih =>
      have hnone : read? (c :: t) = none :=
        read?_eq_none_iff.mpr fun r text hspells hstart => h r text hspells hstart.isInfix
      have hlater : Text.expanded env t = t := ih fun r text hspells hinside =>
        h r text hspells (hinside.trans (List.suffix_cons c t).isInfix)
      rw [Text.expanded_cons env hnone, hlater]

/-! ### References as matches of a pattern -/

/-- The pattern of a name. -/
def namePattern : Pattern :=
  .both (.point isNamePoint) (.many isNamePoint)

/-- The pattern of what follows a name. -/
def endPattern : Pattern :=
  .both (.perhaps (.both (.point (· == bar)) (.kept 2 (.many (· != closing)))))
    (.point (· == closing))

/-- The pattern of references, `\$\{([^}|]+)(?:\|([^}]*))?\}`: the name is group 1, and the
fallback, if any, is group 2. -/
def pattern : Pattern :=
  .both (.point (· == CodePoint.ofChar '$')) <|
  .both (.point (· == CodePoint.ofChar '\x7B')) <|
  .both (.kept 1 namePattern) endPattern

/-- What a match of the pattern gives way to: the value of the variable that group 1 names, or
else the text of group 2, if there is one. -/
def replacement (env : Environment) (m : Match) : Text :=
  (env.get? ((m.group? 1).getD [])).getD ((m.group? 2).getD [])

variable {groups : List (Nat × Text)}

/-- The pattern of names fits names. -/
theorem fits_namePattern_iff {name : Text} :
    namePattern.Fits name groups ↔ IsName name ∧ groups = [] := by
  constructor
  · intro h
    simp only [namePattern, Pattern.fits_both_iff, Pattern.fits_point_iff,
      Pattern.fits_many_iff] at h
    obtain ⟨_, later, _, _, ⟨⟨c, hc, rfl⟩, rfl⟩, ⟨hclass, rfl⟩, rfl, rfl⟩ := h
    have hpoints : ∀ d ∈ c :: later, isNamePoint d = true := List.forall_mem_cons.mpr ⟨hc, hclass⟩
    exact ⟨⟨List.cons_ne_nil c later, fun d hd => isNamePoint_iff.mp (hpoints d hd)⟩, rfl⟩
  · rintro ⟨⟨hne, hpoints⟩, rfl⟩
    obtain ⟨c, later, rfl⟩ := List.exists_cons_of_ne_nil hne
    obtain ⟨hc, hlater⟩ := List.forall_mem_cons.mp hpoints
    exact .both (.point (isNamePoint_iff.mpr hc))
      (.many fun d hd => isNamePoint_iff.mpr (hlater d hd))

/-- The pattern of ends fits a closing brace, or a bar, a fallback and a closing brace. -/
theorem fits_endPattern_iff {ending : Text} :
    endPattern.Fits ending groups ↔ ending = [closing] ∧ groups = [] ∨
      ∃ fallback, closing ∉ fallback ∧ ending = bar :: (fallback ++ [closing]) ∧
        groups = [(2, fallback)] := by
  have hclass (fallback : Text) : (∀ c ∈ fallback, (c != closing) = true) ↔ closing ∉ fallback := by
    simp only [bne_iff_ne, ne_eq, List.forall_mem_ne']
  constructor
  · intro h
    simp only [endPattern, Pattern.fits_both_iff, Pattern.fits_perhaps_iff, Pattern.fits_kept_iff,
      Pattern.fits_many_iff, Pattern.fits_point_iff, beq_iff_eq, exists_eq_left, hclass] at h
    obtain ⟨_, _, _, _, hfallback | ⟨rfl, rfl⟩, ⟨rfl, rfl⟩, rfl, rfl⟩ := h
    · obtain ⟨_, fallback, _, _, ⟨rfl, rfl⟩, ⟨_, ⟨hmem, rfl⟩, rfl⟩, rfl, rfl⟩ := hfallback
      exact .inr ⟨fallback, hmem, rfl, rfl⟩
    · exact .inl ⟨rfl, rfl⟩
  · rintro (⟨rfl, rfl⟩ | ⟨fallback, hmem, rfl, rfl⟩)
    · exact .both .absent (.point_self closing)
    · have hfallback : (Pattern.kept 2 (.many (· != closing))).Fits fallback [(2, fallback)] :=
        .kept (.many ((hclass fallback).mpr hmem))
      exact .both (.present (.both (.point_self bar) hfallback)) (.point_self closing)

/-- The pattern of references fits an opening, a name and an end. -/
theorem fits_pattern_iff {text : Text} :
    pattern.Fits text groups ↔ ∃ name ending later, IsName name ∧ endPattern.Fits ending later ∧
      text = opening ++ name ++ ending ∧ groups = (1, name) :: later := by
  constructor
  · intro h
    simp only [pattern, Pattern.fits_both_iff, Pattern.fits_kept_iff, Pattern.fits_point_iff,
      beq_iff_eq, exists_eq_left, fits_namePattern_iff] at h
    obtain ⟨_, _, _, _, ⟨rfl, rfl⟩, ⟨_, _, _, _, ⟨rfl, rfl⟩, hbody, rfl, rfl⟩, rfl, rfl⟩ := h
    obtain ⟨name, ending, _, later, ⟨_, ⟨hname, rfl⟩, rfl⟩, hend, rfl, rfl⟩ := hbody
    exact ⟨name, ending, later, hname, hend, rfl, rfl⟩
  · rintro ⟨name, ending, later, hname, hend, rfl, rfl⟩
    have hkept : (Pattern.kept 1 namePattern).Fits name [(1, name)] :=
      .kept (fits_namePattern_iff.mpr ⟨hname, rfl⟩)
    exact .both (.point_self _) (.both (.point_self _) (.both hkept hend))

/-- Every match of the pattern of references takes something. -/
theorem pattern_advances : pattern.Advances := by
  intro text groups h
  obtain ⟨name, ending, later, _, _, rfl, _⟩ := fits_pattern_iff.mp h
  exact List.cons_ne_nil _ _

/-- A match of the pattern is a reference, and gives way to what the reference gives way to. -/
theorem spells_of_first? {m : Match} (h : pattern.first? t = some m) :
    ∃ r, Spells r m.taken ∧ m.taken ++ m.rest = t ∧ ∀ env, replacement env m = r.value env := by
  obtain ⟨hfits, htext⟩ := Pattern.fits_of_first? h
  obtain ⟨taken, groups, rest⟩ := m
  obtain ⟨name, ending, later, hname, hend, rfl, rfl⟩ := fits_pattern_iff.mp hfits
  rcases fits_endPattern_iff.mp hend with ⟨rfl, rfl⟩ | ⟨fallback, hmem, rfl, rfl⟩
  · exact ⟨⟨name, []⟩, .mk hname .bare, htext, fun _ => rfl⟩
  · exact ⟨⟨name, fallback⟩, .mk hname (.barred hmem), htext, fun _ => rfl⟩

theorem Ends.exists_fits {fallback ending : Text} (h : Ends fallback ending) :
    ∃ groups, endPattern.Fits ending groups := by
  cases h with
  | bare => exact ⟨[], fits_endPattern_iff.mpr (.inl ⟨rfl, rfl⟩)⟩
  | barred hmem => exact ⟨_, fits_endPattern_iff.mpr (.inr ⟨_, hmem, rfl, rfl⟩)⟩

/-- A reference fits its pattern. -/
theorem Spells.exists_fits {text : Text} (h : Spells r text) :
    ∃ groups, pattern.Fits text groups := by
  cases h with
  | mk hname hend =>
      obtain ⟨later, hlater⟩ := hend.exists_fits
      exact ⟨_, fits_pattern_iff.mpr ⟨_, _, later, hname, hlater, rfl, rfl⟩⟩

/-- The pattern matches at the front of a text if a reference is read there. -/
theorem first?_eq_none_iff : pattern.first? t = none ↔ read? t = none := by
  rw [read?_eq_none_iff]
  constructor
  · rintro h r text hspells ⟨rest, rfl⟩
    obtain ⟨groups, hfits⟩ := hspells.exists_fits
    obtain ⟨m, hm⟩ := Pattern.exists_first? hfits rest
    rw [h] at hm
    cases hm
  · intro h
    cases hm : pattern.first? t with
    | none => rfl
    | some m =>
        obtain ⟨r, hspells, htext, _⟩ := spells_of_first? hm
        exact absurd ⟨m.rest, htext⟩ (h r m.taken hspells)

/-- Replacing references is replacing the matches of the pattern. -/
theorem expanded_eq_substitute (env : Environment) (t : Text) :
    t.expanded env = pattern.substitute pattern_advances (replacement env) t := by
  induction t using Text.expanded.induct with
  | case1 t r rest hread ih =>
      cases hm : pattern.first? t with
      | none =>
          rw [first?_eq_none_iff.mp hm] at hread
          cases hread
      | some m =>
          obtain ⟨r', hspells', htext', hvalue⟩ := spells_of_first? hm
          obtain ⟨text, hspells, htext⟩ := read?_eq_some_iff.mp hread
          -- the first match that is tried is the only one
          obtain ⟨rfl, _, rfl⟩ := hspells.unique hspells' (htext.trans htext'.symm)
          rw [Text.expanded_of_read? env hread, Pattern.substitute_of_first? _ _ hm, hvalue, ih]
  | case2 => rw [Text.expanded_nil, Pattern.substitute_nil]
  | case3 c later hread ih =>
      rw [Text.expanded_cons env hread,
        Pattern.substitute_cons _ _ (first?_eq_none_iff.mpr hread), ih]

end Reference

end RecordLog
