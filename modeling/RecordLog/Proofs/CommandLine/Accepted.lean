import Mathlib.Data.List.Forall2
import RecordLog.CommandLine.Command
import RecordLog.Proofs.Outcomes

/-!
# Command lines that are accepted

A place of a command takes words, and what it takes fits it (`Fits`): one text, or one text
or none, or one text and more.  Only two dashes can make it otherwise, so a command line
without them that is accepted gives every place what fits it (`fits_readArguments`).  The
command is then one that can be run (`readInvocation_ne_wordless`).

Whatever the words are, a command that finds records asks with an object
(`query_of_readInvocation`).
-/

namespace RecordLog.CommandLine

/-! ### Words -/

/-- The two dashes that end the options. -/
def dashes : Text := "--"

/-- A word is a text, and not two dashes. -/
def IsText (w : Word) : Prop :=
  ∃ t, w = .plain t ∧ t ≠ dashes

/-- What a text names as an option does not go to a place. -/
theorem findOption_ne_place {known : List OptionName} {t : Text} {w : Word}
    (h : findOption known t = some w) : w.isPlace = false := by
  unfold findOption at h
  dsimp only at h
  repeat' split at h
  all_goals
    first
      | (obtain rfl := Option.some.inj h
         rfl)
      | cases h

/-- A text classified as a place is kept as it was given. -/
theorem classify_isPlace {known : List OptionName} {t : Text}
    (h : (classify known t).isPlace = true) : classify known t = .plain t := by
  unfold classify at h ⊢
  split
  · rfl
  · rfl
  · next c d later =>
      simp only at h
      split
      · rfl
      · next hdash =>
          rw [if_neg hdash] at h
          split
          · next w hoption =>
              rw [hoption] at h
              exact absurd h (Bool.eq_false_iff.mp (findOption_ne_place hoption))
          · next hnone =>
              rw [hnone] at h
              dsimp only at h
              split at h
              · next hplain => exact if_pos hplain
              · cases h

/-- Without two dashes among the texts, no word that goes to a place is two dashes. -/
theorem isText_words {known : List OptionName} {ts : List Text} (h : dashes ∉ ts) :
    ∀ w ∈ words known ts, w.isPlace = true → IsText w := by
  induction ts with
  | nil => exact fun _ hw => nomatch hw
  | cons t ts ih =>
      obtain ⟨ht, hts⟩ := not_or.mp (mt List.mem_cons.mpr h)
      have hwords : words known (t :: ts) = classify known t :: words known ts :=
        if_neg (Ne.symm ht)
      rw [hwords]
      refine List.forall_mem_cons.mpr ⟨fun hplace => ?_, ih hts⟩
      exact ⟨t, classify_isPlace hplace, Ne.symm ht⟩

/-! ### Places -/

/-- Texts fit a place. -/
inductive Fits : Place → List Text → Prop
  | one (t : Text) : Fits .one [t]
  | none : Fits .optional []
  | some (t : Text) : Fits .optional [t]
  | many (t : Text) (ts : List Text) : Fits .many (t :: ts)

/-- Texts that are not two dashes are all kept. -/
theorem texts_of_isText {ws : List Word} (h : ∀ w ∈ ws, IsText w) :
    Place.texts ws = ws.map Word.text := by
  apply List.erase_of_not_mem
  intro hmem
  obtain ⟨w, hw, htext⟩ := List.mem_map.mp hmem
  obtain ⟨t, rfl, ht⟩ := h w hw
  exact ht htext

/-- A place takes one text, or all of them, if they are no dashes. -/
theorem take_cons (place : Place) (t : Text) {ws : List Word} (h : ∀ w ∈ ws, IsText w) :
    place.take (.plain t :: ws) =
      .some (if place = .many then (.plain t :: ws, []) else ([.plain t], ws)) := by
  cases ws with
  | nil => cases place <;> rfl
  | cons w ws =>
      obtain ⟨u, rfl, _⟩ := h w List.mem_cons_self
      cases place <;> rfl

/-- Words that are texts fit the place that takes them. -/
theorem fits_take {place : Place} {ws taken rest : List Word} (h : ∀ w ∈ ws, IsText w)
    (htake : place.take ws = .some (taken, rest)) :
    Fits place (Place.texts taken) ∧ ∀ w ∈ rest, IsText w := by
  cases ws with
  | nil =>
      cases place with
      | one => cases htake
      | many => cases htake
      | optional =>
          cases htake
          exact ⟨.none, List.forall_mem_nil _⟩
  | cons w ws =>
      obtain ⟨hw, hws⟩ := List.forall_mem_cons.mp h
      obtain ⟨t, rfl, ht⟩ := hw
      rw [take_cons place t hws] at htake
      have hone : Place.texts [.plain t] = [t] :=
        texts_of_isText (List.forall_mem_singleton.mpr ⟨t, rfl, ht⟩)
      cases place with
      | one =>
          cases htake
          exact ⟨hone ▸ .one t, hws⟩
      | optional =>
          cases htake
          exact ⟨hone ▸ .some t, hws⟩
      | many =>
          cases htake
          exact ⟨texts_of_isText h ▸ .many t _, List.forall_mem_nil _⟩

/-- A place that takes nothing needs a word. -/
theorem isOptional_of_take_eq_none {place : Place} {ws : List Word}
    (h : place.take ws = .none) : place.isOptional = false := by
  cases place with
  | one => rfl
  | many => rfl
  | optional =>
      unfold Place.take at h
      dsimp only at h
      split at h <;> contradiction

/-- Texts fill places from the front, each with what fits it; the next place, if there is
one, needs a word. -/
theorem fits_fillPlaces {places left : List Place} {ws rest : List Word}
    {filled : List (List Text)} (h : ∀ w ∈ ws, IsText w)
    (hfill : fillPlaces places ws = (filled, left, rest)) :
    ∃ taken, places = taken ++ left ∧ List.Forall₂ Fits taken filled ∧
      ∀ place ∈ left.head?, place.isOptional = false := by
  induction places generalizing ws filled with
  | nil =>
      cases hfill
      exact ⟨[], rfl, .nil, nofun⟩
  | cons place places ih =>
      rw [fillPlaces] at hfill
      split at hfill
      · next htake =>
          cases hfill
          refine ⟨[], rfl, .nil, ?_⟩
          intro next hnext
          obtain rfl := Option.some.inj hnext
          exact isOptional_of_take_eq_none htake
      · next taken ws' htake =>
          obtain ⟨hfits, hws'⟩ := fits_take h htake
          cases hlater : fillPlaces places ws' with
          | mk filled' more =>
              obtain ⟨left', rest'⟩ := more
              rw [hlater] at hfill
              cases hfill
              obtain ⟨taken', hplaces, hfilled, hneeds⟩ := ih hws' hlater
              exact ⟨place :: taken', congrArg (place :: ·) hplaces, .cons hfits hfilled, hneeds⟩

/-! ### Arguments -/

/-- An option takes words from the front. -/
theorem subset_of_takeOption {name : OptionName} {value : Option Text} {rest left : List Word}
    {option : OptionName × Text} (h : takeOption name value rest = .ok (option, left)) :
    left ⊆ rest := by
  unfold takeOption at h
  split at h
  · split at h
    · cases h
      exact fun _ => id
    · cases h
      exact fun _ => List.mem_cons_of_mem _
    · cases h
  · split at h
    · cases h
    · split at h
      · cases h
      · cases h
        exact fun _ => id

/-- If the next place must be filled and all places may stay empty, no place is left. -/
theorem eq_nil_of_all_isOptional {left : List Place}
    (hneeds : ∀ place ∈ left.head?, place.isOptional = false)
    (hall : left.all Place.isOptional = true) : left = [] := by
  cases left with
  | nil => rfl
  | cons place later =>
      have hplace := hneeds place rfl
      rw [List.all_cons, hplace, Bool.false_and] at hall
      cases hall

/-- The texts in the places fit them. -/
theorem fits_readWords {fuel : Nat} {places : List Place} {ws : List Word} {args : Arguments}
    (h : ∀ w ∈ ws, w.isPlace = true → IsText w) (hread : readWords fuel places ws = .ok args) :
    List.Forall₂ Fits places args.places := by
  fun_induction readWords fuel places ws generalizing args with
  | case1 _ places filled left _ hfill hall =>
      obtain ⟨taken, rfl, hfits, hneeds⟩ := fits_fillPlaces (List.forall_mem_nil _) hfill
      obtain rfl := eq_nil_of_all_isOptional hneeds hall
      obtain rfl := Except.ok.inj hread
      rwa [List.append_nil]
  | case2 | case3 | case4 | case6 | case8 => cases hread
  | case5 fuel places name value rest option left htake ih =>
      obtain ⟨later, hlater, rfl⟩ := map_eq_ok_iff.mp hread
      have hleft : ∀ w ∈ left, w.isPlace = true → IsText w := fun w hw =>
        h w (List.mem_cons_of_mem _ (subset_of_takeOption htake hw))
      have hfits := ih hleft hlater
      exact hfits
  | case7 fuel places ws _ _ _ run filled left hfill =>
      rename_i ih
      have hrun : ∀ w ∈ ws.takeWhile Word.isPlace, IsText w := fun w hw =>
        h w ((List.takeWhile_sublist _).subset hw) (List.all_eq_true.mp List.all_takeWhile w hw)
      obtain ⟨taken, rfl, hfits, _⟩ := fits_fillPlaces hrun hfill
      obtain ⟨later, hlater, rfl⟩ := map_eq_ok_iff.mp hread
      have hrest : ∀ w ∈ ws.dropWhile Word.isPlace, w.isPlace = true → IsText w := fun w hw =>
        h w ((List.dropWhile_sublist _).subset hw)
      exact List.rel_append hfits (ih hrest hlater)

/-- **What is accepted fits.**  A command line without two dashes gives every place what fits
it. -/
theorem fits_readArguments {known : List OptionName} {places : List Place} {argv : List Text}
    {args : Arguments} (h : dashes ∉ argv) (hread : readArguments known places argv = .ok args) :
    List.Forall₂ Fits places args.places :=
  fits_readWords (isText_words h) hread

/-! ### Commands -/

/-- A find command is made of the texts in its places, read with the options it knows. -/
theorem readFind_eq_ok {places : List Place}
    {make : Presentation → List (List Text) → Except UsageFault Command} {argv : List Text}
    {command : Command} (h : readFind places make argv = .ok command) :
    ∃ p args, readArguments findOptions places argv = .ok args ∧
      make p args.places = .ok command := by
  unfold readFind at h
  split at h
  · cases h
  · next args hargs =>
      split at h
      · cases h
      · next p _ => exact ⟨p, args, hargs, h⟩

/-- A command that finds records asks with an object. -/
def AsksWithObject : Command → Prop
  | .find f => ∃ Q, f.query = .obj Q
  | _ => True

theorem asks_findCommand {p : Presentation} {places : List (List Text)} {command : Command}
    (h : findCommand p places = .ok command) : AsksWithObject command := by
  unfold findCommand at h
  split at h
  · obtain rfl := Except.ok.inj h
    exact ⟨[], rfl⟩
  · obtain ⟨Q, _, rfl⟩ := map_eq_ok_iff.mp h
    exact ⟨Q, rfl⟩
  · obtain ⟨Q, _, rfl⟩ := map_eq_ok_iff.mp h
    exact trivial
  · obtain rfl := Except.ok.inj h
    exact trivial

theorem asks_textCommand {p : Presentation} {places : List (List Text)} {command : Command}
    (h : textCommand p places = .ok command) : AsksWithObject command := by
  unfold textCommand at h
  split at h
  · obtain rfl := Except.ok.inj h
    exact ⟨_, rfl⟩
  · obtain rfl := Except.ok.inj h
    exact trivial

theorem asks_whereCommand {p : Presentation} {places : List (List Text)} {command : Command}
    (h : whereCommand p places = .ok command) : AsksWithObject command := by
  unfold whereCommand at h
  split at h
  · obtain ⟨symbols, _, h⟩ := bind_eq_ok_iff.mp h
    dsimp only at h
    split at h
    · obtain ⟨value, _, h⟩ := bind_eq_ok_iff.mp h
      split at h
      · obtain rfl := Except.ok.inj h
        exact ⟨_, rfl⟩
      · obtain rfl := Except.ok.inj h
        exact trivial
    · split at h
      · obtain rfl := Except.ok.inj h
        exact ⟨_, rfl⟩
      · obtain rfl := Except.ok.inj h
        exact trivial
  · obtain rfl := Except.ok.inj h
    exact trivial

/-- The texts that fit the places of `find` do not leave it wordless. -/
theorem findCommand_ne_wordless {p : Presentation} {places : List (List Text)}
    {command : Command} (hfits : List.Forall₂ Fits [.one, .optional] places)
    (h : findCommand p places = .ok command) : command ≠ .wordless := by
  obtain ⟨_, _, hdb, hlater, rfl⟩ := List.forall₂_cons_left_iff.mp hfits
  obtain ⟨_, _, hquery, hend, rfl⟩ := List.forall₂_cons_left_iff.mp hlater
  obtain rfl := List.forall₂_nil_left_iff.mp hend
  cases hdb with
  | one db =>
      cases hquery with
      | none =>
          obtain rfl := Except.ok.inj h
          exact Command.noConfusion
      | some t =>
          obtain ⟨Q, _, rfl⟩ := map_eq_ok_iff.mp h
          exact Command.noConfusion

theorem textCommand_ne_wordless {p : Presentation} {places : List (List Text)}
    {command : Command} (hfits : List.Forall₂ Fits [.one, .many] places)
    (h : textCommand p places = .ok command) : command ≠ .wordless := by
  obtain ⟨_, _, hdb, hlater, rfl⟩ := List.forall₂_cons_left_iff.mp hfits
  obtain ⟨phrase, _, _, hend, rfl⟩ := List.forall₂_cons_left_iff.mp hlater
  obtain rfl := List.forall₂_nil_left_iff.mp hend
  cases hdb with
  | one db =>
      obtain rfl := Except.ok.inj h
      exact Command.noConfusion

theorem whereCommand_ne_wordless {p : Presentation} {places : List (List Text)}
    {command : Command} (hfits : List.Forall₂ Fits [.one, .one, .one, .one] places)
    (h : whereCommand p places = .ok command) : command ≠ .wordless := by
  obtain ⟨_, _, hdb, hthree, rfl⟩ := List.forall₂_cons_left_iff.mp hfits
  obtain ⟨_, _, hfield, htwo, rfl⟩ := List.forall₂_cons_left_iff.mp hthree
  obtain ⟨_, _, hop, hlast, rfl⟩ := List.forall₂_cons_left_iff.mp htwo
  obtain ⟨_, _, hvalue, hend, rfl⟩ := List.forall₂_cons_left_iff.mp hlast
  obtain rfl := List.forall₂_nil_left_iff.mp hend
  obtain ⟨db⟩ := hdb
  obtain ⟨field⟩ := hfield
  obtain ⟨op⟩ := hop
  obtain ⟨value⟩ := hvalue
  obtain ⟨symbols, hsymbols, h⟩ := bind_eq_ok_iff.mp h
  obtain ⟨symbol, rfl⟩ : ∃ symbol, symbols = [symbol] := by
    rw [List.mapM_cons, List.mapM_nil] at hsymbols
    obtain ⟨symbol, _, hsymbols⟩ := bind_eq_ok_iff.mp hsymbols
    exact ⟨symbol, (Except.ok.inj hsymbols).symm⟩
  obtain ⟨v, _, h⟩ := bind_eq_ok_iff.mp h
  obtain rfl := Except.ok.inj h
  exact Command.noConfusion

/-- What a command line gives without two dashes can be run. -/
theorem readCommand_ne_wordless {name : Text} {argv : List Text} {command : Command}
    (hdashes : dashes ∉ argv) (h : readCommand name argv = .ok command) :
    command ≠ .wordless := by
  unfold readCommand at h
  split at h
  · obtain ⟨p, args, hargs, h⟩ := readFind_eq_ok h
    exact findCommand_ne_wordless (fits_readArguments hdashes hargs) h
  split at h
  · obtain ⟨p, args, hargs, h⟩ := readFind_eq_ok h
    exact textCommand_ne_wordless (fits_readArguments hdashes hargs) h
  split at h
  · obtain ⟨p, args, hargs, h⟩ := readFind_eq_ok h
    exact whereCommand_ne_wordless (fits_readArguments hdashes hargs) h
  split at h
  · obtain ⟨args, _, rfl⟩ := map_eq_ok_iff.mp h
    exact Command.noConfusion
  · cases h

/-- Whatever its name, a command that asks does so with an object. -/
theorem asks_readCommand {name : Text} {argv : List Text} {command : Command}
    (h : readCommand name argv = .ok command) : AsksWithObject command := by
  unfold readCommand at h
  split at h
  · obtain ⟨p, args, _, h⟩ := readFind_eq_ok h
    exact asks_findCommand h
  split at h
  · obtain ⟨p, args, _, h⟩ := readFind_eq_ok h
    exact asks_textCommand h
  split at h
  · obtain ⟨p, args, _, h⟩ := readFind_eq_ok h
    exact asks_whereCommand h
  split at h
  · obtain ⟨args, _, rfl⟩ := map_eq_ok_iff.mp h
    exact trivial
  · cases h

/-- A command line that is accepted ends in a command and what follows it. -/
theorem exists_readCommand {settingsFile : Option Text} {argv : List Text}
    {invocation : Invocation} (h : readInvocation settingsFile argv = .ok invocation) :
    ∃ name rest, rest ⊆ argv ∧ readCommand name rest = .ok invocation.command := by
  fun_induction readInvocation settingsFile argv with
  | case3 settingsFile t rest _ name _ =>
      obtain ⟨command, hcommand, rfl⟩ := map_eq_ok_iff.mp h
      exact ⟨name, rest, List.subset_cons_self t rest, hcommand⟩
  | case4 _ t _ file rest _ ih =>
      obtain ⟨name, later, hsubset, hcommand⟩ := ih h
      exact ⟨name, later, fun _ hmem => List.mem_cons_of_mem t (hsubset hmem), hcommand⟩
  | case6 _ t _ given rest file _ _ _ ih =>
      obtain ⟨name, later, hsubset, hcommand⟩ := ih h
      have hgiven : later ⊆ given :: rest := fun _ hmem => List.mem_cons_of_mem given (hsubset hmem)
      exact ⟨name, later, fun _ hmem => List.mem_cons_of_mem t (hgiven hmem), hcommand⟩
  | _ => cases h

/-- **A command line without two dashes that is accepted can be run.** -/
theorem readInvocation_ne_wordless {argv : List Text} {invocation : Invocation}
    (hdashes : dashes ∉ argv) (h : readInvocation none argv = .ok invocation) :
    invocation.command ≠ .wordless := by
  obtain ⟨name, rest, hsubset, hcommand⟩ := exists_readCommand h
  exact readCommand_ne_wordless (fun hmem => hdashes (hsubset hmem)) hcommand

/-- An accepted find has an object as its query. -/
theorem query_of_readInvocation {argv : List Text} {settingsFile : Option Text}
    {f : FindCommand} (h : readInvocation none argv = .ok ⟨settingsFile, .find f⟩) :
    ∃ Q, f.query = .obj Q := by
  obtain ⟨name, rest, _, hcommand⟩ := exists_readCommand h
  exact asks_readCommand hcommand

end RecordLog.CommandLine
