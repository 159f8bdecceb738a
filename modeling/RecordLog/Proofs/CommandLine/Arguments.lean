import RecordLog.CommandLine.Command
import RecordLog.Proofs.Json.RoundTrip

/-!
# The command line of a find

A find is asked for with a database, a query document, sort keys and a projection, in that
order, and possibly with the option to print one record a line.  The documents are never
taken for options, since no object starts with a dash (`classify_of_read_obj`).  So if the
name of the database is not taken for one either, the command line is read as just that
find (`readInvocation_findLine`).
-/

namespace RecordLog

/-! ### Texts of objects -/

/-- The text of an object does not start with a dash. -/
theorem Json.exists_cons_of_read_obj {t : Text} {members : Members}
    (h : read t = .ok (obj members)) : ∃ c later, t = c :: later ∧ c ≠ CodePoint.ofChar '-' := by
  match t with
  | [] => cases h
  | c :: later =>
      refine ⟨c, later, rfl, ?_⟩
      rintro rfl
      have hmark : ¬ (CodePoint.ofChar '-').val = 0xFEFF := by decide
      have hquote : ¬ (CodePoint.ofChar '-').val = 0x22 := by decide
      have hbracket : ¬ (CodePoint.ofChar '-').val = 0x5B := by decide
      have hbrace : ¬ (CodePoint.ofChar '-').val = 0x7B := by decide
      have hatom := readAtom_gives (CodePoint.ofChar '-' :: later)
      rw [read] at h
      simp only [if_neg hmark, skipSpace_cons (c := CodePoint.ofChar '-') rfl, readValue,
        if_neg hquote, if_neg hbracket, if_neg hbrace] at h
      split at h
      · cases h
      · next v rest hread =>
          split at h
          · obtain rfl := Except.ok.inj h
            cases (hatom _ rest hread).2
          · cases h

namespace CommandLine

/-- A text that reads as an object starts with a brace or a blank, so it is no option. -/
theorem classify_of_read_obj {t : Text} {members : Members}
    (h : Json.read t = .ok (.obj members)) (known : List OptionName) :
    classify known t = .plain t := by
  obtain ⟨c, later, rfl, hc⟩ := Json.exists_cons_of_read_obj h
  cases later with
  | nil => rfl
  | cons d later => exact if_pos hc

/-! ### Words -/

/-- A plain text that is no double dash is one word, and the rest is read as before. -/
theorem words_cons_plain {known : List OptionName} {t : Text} (hdashes : t ≠ Text.ofString "--")
    (h : classify known t = .plain t) (ts : List Text) :
    words known (t :: ts) = .plain t :: words known ts := by
  rw [words, if_neg hdashes, h]

/-- The options that a find knows. -/
def knownOptions : List OptionName := helpOption :: findOptions

/-- A plain text is not the double dash. -/
theorem ne_dashes_of_classify {t : Text} (h : classify knownOptions t = .plain t) :
    t ≠ Text.ofString "--" := by
  rintro rfl
  have hunknown : classify knownOptions (Text.ofString "--") = .unknown := by decide
  rw [hunknown] at h
  cases h

/-- An object's text is one plain word. -/
theorem words_cons_object {t : Text} {members : Members}
    (h : Json.read t = .ok (.obj members)) (ts : List Text) :
    words knownOptions (t :: ts) = .plain t :: words knownOptions ts := by
  have hword := classify_of_read_obj h knownOptions
  exact words_cons_plain (ne_dashes_of_classify hword) hword ts

/-- A long option name is an option without a value of its own. -/
theorem words_cons_option {o : OptionName} (ho : o ∈ findOptions) (ts : List Text) :
    words knownOptions (o.long :: ts) = .option o none :: words knownOptions ts := by
  have hlong : ∀ o ∈ findOptions, o.long ≠ Text.ofString "--" ∧
      classify knownOptions o.long = .option o none := by decide
  rw [words, if_neg (hlong o ho).1, (hlong o ho).2]

/-! ### The find -/

/-- What follows the name of the command on a command line that asks for a find. -/
def findArguments (db query sort projection : Text) (lines : Bool) : List Text :=
  [db, query, sortOption.long, sort, projectionOption.long, projection] ++
    if lines then [linesOption.long] else []

/-- A command line that asks for a find. -/
def findLine (db query sort projection : Text) (lines : Bool) : List Text :=
  Text.ofString "find" :: findArguments db query sort projection lines

section

variable {db query sort projection : Text} {Q S P : Members}
  (hdb : classify knownOptions db = .plain db)
  (hquery : Json.read query = .ok (.obj Q))
  (hsort : Json.read sort = .ok (.obj S))
  (hprojection : Json.read projection = .ok (.obj P))
include hdb hquery hsort hprojection

/-- The words of a find invocation: its two places and the options it names, each with its value. -/
theorem words_findArguments (lines : Bool) :
    words knownOptions (findArguments db query sort projection lines) =
      [.plain db, .plain query, .option sortOption none, .plain sort,
        .option projectionOption none, .plain projection] ++
        if lines then [.option linesOption none] else [] := by
  have hlines : ∀ ts, words knownOptions (linesOption.long :: ts) =
      .option linesOption none :: words knownOptions ts := words_cons_option (by decide)
  have hend : words knownOptions [] = [] := rfl
  rw [findArguments, List.cons_append, words_cons_plain (ne_dashes_of_classify hdb) hdb,
    List.cons_append, words_cons_object hquery, List.cons_append, words_cons_option (by decide),
    List.cons_append, words_cons_object hsort, List.cons_append, words_cons_option (by decide),
    List.cons_append, words_cons_object hprojection, List.nil_append]
  cases lines with
  | true => rw [if_pos rfl, hlines, hend]; rfl
  | false => rfl

/-- The arguments of a find invocation fill both places and carry each option's value as given. -/
theorem readArguments_findArguments (lines : Bool) :
    readArguments findOptions [.one, .optional] (findArguments db query sort projection lines) =
      .ok ⟨[[db], [query]], [(sortOption, sort), (projectionOption, projection)] ++
        if lines then [(linesOption, [])] else []⟩ := by
  have htexts : ∀ t, t ≠ Text.ofString "--" → Place.texts [.plain t] = [t] := fun t ht =>
    List.erase_of_not_mem fun hmem => ht (List.mem_singleton.mp hmem).symm
  have hdbText := htexts db (ne_dashes_of_classify hdb)
  have hqueryText := htexts query (ne_dashes_of_classify (classify_of_read_obj hquery _))
  have hfill : fillPlaces [.one, .optional] [.plain db, .plain query] =
      ([[db], [query]], [], []) := by
    simp [fillPlaces, Place.take, hdbText, hqueryText]
  have hplaces : ∀ fuel o value later,
      readWords (fuel + 1) [.one, .optional]
          (.plain db :: .plain query :: .option o value :: later) =
        (readWords fuel [] (.option o value :: later)).map fun args =>
          { args with places := [[db], [query]] ++ args.places } := by
    intro fuel o value later
    have hrun : (Word.plain db :: .plain query :: .option o value :: later).takeWhile
        Word.isPlace = [.plain db, .plain query] := rfl
    have hrest : (Word.plain db :: .plain query :: .option o value :: later).dropWhile
        Word.isPlace = .option o value :: later := rfl
    rw [readWords]
    · simp only [hrun, hrest, hfill]
    all_goals exact nofun
  rw [readArguments, ← knownOptions, words_findArguments hdb hquery hsort hprojection]
  cases lines with
  | true =>
      rw [List.cons_append, List.cons_append, List.cons_append, List.length_cons, hplaces]
      rfl
  | false =>
      rw [List.cons_append, List.cons_append, List.cons_append, List.length_cons, hplaces]
      rfl

/-- **A command line that asks for a find is read as that find.** -/
theorem readInvocation_findLine (lines : Bool) :
    readInvocation none (findLine db query sort projection lines) =
      .ok ⟨none, .find ⟨db, .obj Q, ⟨some S, some P, lines⟩⟩⟩ := by
  have hname : readInvocation none (findLine db query sort projection lines) =
      (readFind [.one, .optional] findCommand
        (findArguments db query sort projection lines)).map (⟨none, ·⟩) := rfl
  have hobject : ∀ {t : Text} {members : Members}, Json.read t = .ok (.obj members) →
      readObject t = .ok members := by
    intro t members h
    rw [readObject, h]
  have hoptions : Presentation.ofOptions ([(sortOption, sort), (projectionOption, projection)] ++
      if lines then [(linesOption, [])] else []) = .ok ⟨some S, some P, lines⟩ := by
    have hprojectionName : projectionOption ≠ sortOption := by decide
    have hlinesName : linesOption ≠ sortOption ∧ linesOption ≠ projectionOption := by decide
    cases lines with
    | true =>
        simp [Presentation.ofOptions, hobject hsort, hobject hprojection, hprojectionName,
          hlinesName.1, hlinesName.2, Except.map]
    | false =>
        simp [Presentation.ofOptions, hobject hsort, hobject hprojection, hprojectionName,
          Except.map]
  rw [hname, readFind, readArguments_findArguments hdb hquery hsort hprojection]
  simp only [hoptions, findCommand, hobject hquery]
  rfl

end

end CommandLine

end RecordLog
