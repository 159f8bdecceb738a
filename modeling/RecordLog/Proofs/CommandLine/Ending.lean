import RecordLog.Proofs.CommandLine.Accepted
import RecordLog.Proofs.CommandLine.Finding
import RecordLog.Proofs.Query.Completion
import RecordLog.Proofs.Record.Loading
import RecordLog.Proofs.Settings.Entries

/-!
# How a command ends

A command that finds records ends with an answer: the records, or one object that says why
there are none (`Answers`).  This takes a database whose entry is well formed, and a log
without integers of too many digits; everything else that a query, its options or a log can
have wrong is spoken of.

Three ways remain in which the program is stopped (`run_ends`).  A path may not lead to a log
that can be opened; of all that can be in the way, only a log that is not there is spoken of
(`run_stopped_at_folder`).  Output may not take a line that is to be printed.  And two dashes
can stand where a text should.
-/

namespace RecordLog

/-! ### Outcomes of finds -/

/-- A load gives records, or an error of the log, or stops at an integer of too many digits. -/
theorem Log.load_cases (path : Path) (strictIds : Bool) (content : Octets) :
    (∃ records, load path strictIds content = .ok records) ∨
      (∃ e, load path strictIds content = .error (.query e)) ∨
      ∃ line ∈ rawLines content, Overlong line ∧
        load path strictIds content = .error .malformed := by
  rcases readContent_cases content with ⟨records, _, hread⟩ | ⟨line, n, hline⟩
  · rcases load_of_readContent_ok hread path strictIds with hload | ⟨_, id, position, hload⟩
    · exact .inl ⟨records, hload⟩
    · exact .inr (.inl ⟨_, hload⟩)
  · rcases load_stopsAt hline path strictIds with ⟨hlong, hload⟩ | ⟨_, reason, hload⟩
    · exact .inr (.inr ⟨line, hline.mem, hlong, hload⟩)
    · exact .inr (.inl ⟨_, hload⟩)

/-- A find gives records, or an error of the query, its options or the log, or the failure that
kept the log from being read, or stops at an integer of too many digits. -/
theorem Database.find_cases (db : Database) (document options : Json) (reading : LogReading) :
    (∃ found, db.find document options reading = .ok found) ∨
      (∃ e, db.find document options reading = .error (.query e)) ∨
      (∃ failure, reading = .error failure ∧ db.find document options reading = .error failure) ∨
      ∃ content, reading = .ok content ∧ ∃ line ∈ Log.rawLines content, Log.Overlong line := by
  rw [find]
  cases QueryOptions.ofJson options with
  | error e => exact .inr (.inl ⟨e, rfl⟩)
  | ok options =>
      cases reading with
      | error failure => exact .inr (.inr (.inl ⟨failure, rfl, rfl⟩))
      | ok content =>
          have hfind : db.findWith document options (.ok content) =
              (Log.load db.path db.strictIds content).bind (db.answer document options) := by
            rw [findWith, load]
            cases Log.load db.path db.strictIds content <;> rfl
          dsimp only
          rw [hfind]
          rcases Log.load_cases db.path db.strictIds content with
            ⟨records, hload⟩ | ⟨e, hload⟩ | ⟨line, hline, hlong, _⟩
          · rw [hload, Except.bind]
            cases hanswer : db.answer document options records with
            | ok found => exact .inl ⟨found, rfl⟩
            | error failure =>
                obtain ⟨e, rfl, _⟩ := answer_eq_error hanswer
                exact .inr (.inl ⟨e, rfl⟩)
          · rw [hload]
            exact .inr (.inl ⟨e, rfl⟩)
          · exact .inr (.inr (.inr ⟨content, rfl, line, hline, hlong⟩))

namespace CommandLine

/-! ### Endings -/

/-- A command ends with an answer.  It prints what was found, on the lines that say so, or one
line with an object that says no and has a code. -/
def Answers (lines : Bool) (outcome : Outcome (List Record)) (ending : Ending) : Prop :=
  (∃ found, outcome = .ok found ∧
    ending = ⟨.ok 0, (foundLines lines found).flatMap ended⟩) ∨
    ∃ (said : Members) (code : Text),
      ending = ⟨.ok 1, ended (Json.write .unicode (.obj said))⟩ ∧
      ControlFree (Json.write .unicode (.obj said)) ∧
      said.get? "ok" = some (.bool false) ∧ said.get? "code" = some (.str code)

/-- The lines that are to be printed about an outcome. -/
def saidLines (lines : Bool) : Outcome (List Record) → List Text
  | .ok found => foundLines lines found
  | .error (.query e) => [Json.write .unicode (.obj e.report)]
  | .error (.storage e) =>
    if e.fault = .missing then [Json.write .unicode (.obj (Ending.missingFile e.path))] else []
  | .error _ => []

/-- Output cannot take a line that is to be printed, and the program is stopped. -/
def Refused (platform : Platform) (lines : Bool) (outcome : Outcome (List Record))
    (ending : Ending) : Prop :=
  (∃ line ∈ saidLines lines outcome, platform.prints line = false) ∧
    ending.status = .error .unprintable

/-- Something keeps the log from being read that is not spoken of, and the program is
stopped. -/
def Unopened (outcome : Outcome (List Record)) (reading : LogReading) (ending : Ending) : Prop :=
  ∃ failure, reading = .error failure ∧ (∀ path, failure ≠ .storage ⟨.missing, path⟩) ∧
    outcome = .error failure ∧ ending = .stopped failure

section

variable {platform : Platform} {lines : Bool} {outcome : Outcome (List Record)}

/-- An object that says no is an answer if output takes it, and refused if not. -/
theorem answers_printing {said : Members} {code : Text}
    (hlines : saidLines lines outcome = [Json.write .unicode (.obj said)])
    (hok : said.get? "ok" = some (.bool false)) (hcode : said.get? "code" = some (.str code)) :
    Answers lines outcome (.printing platform 1 .unicode said) ∨
      Refused platform lines outcome (.printing platform 1 .unicode said) := by
  have hprinted := printed_printingLines platform 1 [Json.write .unicode (.obj said)]
  cases htaken : platform.prints (Json.write .unicode (.obj said)) with
  | true =>
      refine .inl (.inr ⟨said, code, ?_, Json.controlFree_write Json.Style.printable_unicode _,
        hok, hcode⟩)
      rw [Ending.printing, hprinted.eq_of_prints (List.forall_mem_singleton.mpr htaken),
        List.flatMap_singleton]
  | false =>
      refine .inr ⟨⟨_, hlines ▸ List.mem_singleton_self _, htaken⟩, ?_⟩
      exact hprinted.status_of_refused (List.mem_singleton_self _) htaken

/-- What was found is printed if output takes its lines, and refused if not. -/
theorem answers_printFound (found : List Record) :
    Answers lines (.ok found) (printFound platform lines found) ∨
      Refused platform lines (.ok found) (printFound platform lines found) := by
  have hprinted := printed_printingLines platform 0 (foundLines lines found)
  by_cases htaken : ∀ line ∈ foundLines lines found, platform.prints line = true
  · exact .inl (.inl ⟨found, rfl, hprinted.eq_of_prints htaken⟩)
  · push Not at htaken
    obtain ⟨line, hline, hnot⟩ := htaken
    have hrefused := Bool.eq_false_iff.mpr hnot
    exact .inr ⟨⟨line, hline, hrefused⟩, hprinted.status_of_refused hline hrefused⟩

/-- A failure that is not spoken of stops the program. -/
theorem ofFailure_of_ne {failure : Failure} (hquery : ∀ e, failure ≠ .query e)
    (hmissing : ∀ path, failure ≠ .storage ⟨.missing, path⟩) :
    Ending.ofFailure platform failure = .stopped failure := by
  cases failure with
  | query e => exact absurd rfl (hquery e)
  | storage e =>
      obtain ⟨fault, path⟩ := e
      refine if_neg ?_
      rintro rfl
      exact hmissing path rfl
  | _ => rfl

/-- The end of a find is an answer, unless something else than a missing log kept the log from
being read, or output cannot take a line. -/
theorem answers_ofOutcome (platform : Platform) (lines : Bool) (db : Database) (Q : Members)
    (options : Json) {reading : LogReading}
    (hreading : ∀ e, reading ≠ .error (.query e))
    (hdigits : ∀ content, reading = .ok content →
      ∀ line ∈ Log.rawLines content, ¬ Log.Overlong line) :
    let outcome := db.find (.obj Q) options reading
    let ending := Ending.ofOutcome platform lines outcome
    Answers lines outcome ending ∨ Unopened outcome reading ending ∨
      Refused platform lines outcome ending := by
  intro outcome ending
  rcases db.find_cases (.obj Q) options reading with
    ⟨found, hfound⟩ | ⟨e, herror⟩ | ⟨failure, hfailed, herror⟩ |
      ⟨content, hcontent, line, hline, hlong⟩
  · have houtcome : outcome = .ok found := hfound
    have hending : ending = printFound platform lines found :=
      congrArg (Ending.ofOutcome platform lines) houtcome
    rw [houtcome, hending]
    exact (answers_printFound found).imp_right .inr
  · have houtcome : outcome = .error (.query e) := herror
    have hending : ending = .printing platform 1 .unicode e.report :=
      congrArg (Ending.ofOutcome platform lines) houtcome
    obtain ⟨hok, hcode⟩ := e.get?_report
    rw [houtcome, hending]
    exact (answers_printing rfl hok hcode).imp_right .inr
  · have houtcome : outcome = .error failure := herror
    have hending : ending = .ofFailure platform failure :=
      congrArg (Ending.ofOutcome platform lines) houtcome
    rw [houtcome, hending]
    by_cases hmissing : ∃ path, failure = .storage ⟨.missing, path⟩
    · obtain ⟨path, rfl⟩ := hmissing
      exact (answers_printing rfl rfl rfl).imp_right .inr
    · rw [not_exists] at hmissing
      have hquery : ∀ e, failure ≠ .query e := by
        rintro e rfl
        exact hreading e hfailed
      exact .inr (.inl ⟨failure, hfailed, hmissing, rfl, ofFailure_of_ne hquery hmissing⟩)
  · exact absurd hlong (hdigits content hcontent line hline)

end

/-! ### Runs -/

section

variable {platform : Platform} {disk : Disk} {s s' : Section} {argv : List Text}
  {settingsFile : Option Text} {command : Command}

/-- A command that finds records ends with the outcome of its find. -/
theorem run_find {f : FindCommand} {db : Database} {s'' : Section} {Q : Members}
    (hread : readInvocation none argv = .ok ⟨settingsFile, .find f⟩)
    (hreload : reload platform disk s settingsFile = .ok s')
    (hopen : Service.openDatabase s' platform disk f.database true = (.ok db, s''))
    (hquery : f.query = .obj Q) :
    run platform disk s argv =
      (.ofOutcome platform f.presentation.lines
        (db.find (.obj Q) f.presentation.options (db.readFrom disk)), s'') := by
  rw [run, hread]
  simp only [hreload, runCommand, runFind, hopen, hquery, Service.find_fst, Handle.new]
  cases db.find (.obj Q) f.presentation.options (db.readFrom disk) with
  | error failure => rfl
  | ok found => rfl

/-- A command that cannot open its database ends with the failure. -/
theorem run_unopened {f : FindCommand} {s'' : Section} {failure : Failure}
    (hread : readInvocation none argv = .ok ⟨settingsFile, .find f⟩)
    (hreload : reload platform disk s settingsFile = .ok s')
    (hopen : Service.openDatabase s' platform disk f.database true = (.error failure, s'')) :
    run platform disk s argv = (.ofFailure platform failure, s'') := by
  rw [run, hread]
  simp only [hreload, runCommand, runFind, hopen]

/-- **A command that finds records ends with an answer**, if the entry of its database is well
formed and no integer in the log has too many digits: whatever else the log holds, and
whatever is asked.  There are three exceptions.  The log cannot be opened, and not because it is
not there: its path leads to a directory, or through a file, or is one that the system refuses.
Or output cannot take a line that is to be printed.  Or two dashes stand where a text should. -/
theorem run_ends (hread : readInvocation none argv = .ok ⟨settingsFile, command⟩)
    (hfinds : command ≠ .listDatabases) (hreload : reload platform disk s settingsFile = .ok s') :
    (∃ f, command = .find f ∧ ∀ entry, s'.Configures f.database entry →
      (∃ db, (Service.openDatabase s' platform disk f.database true).1 = .ok db ∧
        ((∀ content, disk.read db.path = .ok content →
            ∀ line ∈ Log.rawLines content, ¬ Log.Overlong line) →
          ∀ (m : Metrics) (records : List Record),
            let outcome := (Service.find m ⟨db, records⟩ f.query f.presentation.options
              (db.readFrom disk)).1
            let ending := (run platform disk s argv).1
            Answers f.presentation.lines outcome ending ∨
              Unopened outcome (disk.read db.path) ending ∨
              Refused platform f.presentation.lines outcome ending)) ∨
        ¬ entry.GivesPath ∧ (run platform disk s argv).1 = .stopped .malformed) ∨
      (command = .wordless ∧ dashes ∈ argv ∧
        (run platform disk s argv).1 = .stopped .unsuitable) := by
  cases command with
  | listDatabases => exact absurd rfl hfinds
  | find f =>
      left
      refine ⟨f, rfl, ?_⟩
      intro entry hentry
      rcases Service.openDatabase_of_configures hentry platform disk true with
        ⟨db, s'', hopen⟩ | ⟨hpath, s'', hopen⟩
      · left
        obtain ⟨Q, hquery⟩ := query_of_readInvocation hread
        refine ⟨db, congrArg Prod.fst hopen, ?_⟩
        intro hdigits m records
        rw [run_find hread hreload hopen hquery, hquery, Service.find_fst]
        exact answers_ofOutcome platform f.presentation.lines db Q f.presentation.options
          (fun e => disk.read_ne_query db.path e) hdigits
      · right
        refine ⟨hpath, ?_⟩
        rw [run_unopened hread hreload hopen]
        rfl
  | wordless =>
      right
      refine ⟨rfl, ?_, ?_⟩
      · by_contra hdashes
        exact readInvocation_ne_wordless hdashes hread rfl
      · rw [run, hread]
        simp only [hreload, runCommand]

end

/-- A find for all records of a log of one record. -/
theorem run_ends_one_record :
    let log : Octets := [0x45, 0x7B, 0x22, 0x5F, 0x69, 0x64, 0x22, 0x3A, 0x31, 0x7D, 0x0A]
    let disk : Disk := ⟨[(["a.log"], .file log)], []⟩
    let platform : Platform := .ofEnvironment []
    let entry : Section := [("path", .str "a.log")]
    let s : Section := [("data_dir", .str "."), ("databases", .obj [("d", .obj entry)])]
    let argv : List Text := ["find", "d"]
    let outcome : Outcome (List Record) := .ok [[("_id", .int 1)]]
    readInvocation none argv = .ok ⟨none, .find ⟨"d", .obj [], ⟨none, none, false⟩⟩⟩ ∧
      s.Configures "d" entry ∧ Answers false outcome (run platform disk s argv).1 := by
  intro log disk platform entry s argv outcome
  have hread : readInvocation none argv =
      .ok ⟨none, .find ⟨"d", .obj [], ⟨none, none, false⟩⟩⟩ := rfl
  have hreload : reload platform disk s none = .ok s := rfl
  have hentry : s.Configures "d" entry :=
    ⟨⟨_, rfl, rfl⟩, ⟨_, _, rfl⟩, trivial, .inr ⟨_, rfl⟩⟩
  have hholds : Log.Holds (log.take 10) [("_id", .int 1)] :=
    ⟨_, Log.carries_iff.mpr rfl, rfl, rfl⟩
  have hlines : Log.rawLines log = [log.take 10, []] := rfl
  have hdigits : ∀ line ∈ Log.rawLines log, ¬ Log.Overlong line := by
    rw [hlines, List.forall_mem_cons, List.forall_mem_singleton]
    exact ⟨fun hlong => hlong.faulty.2 _ hholds, fun hlong => absurd hlong.faulty.1 (by decide)⟩
  refine ⟨hread, hentry, ?_⟩
  rcases run_ends hread Command.noConfusion hreload with ⟨f, hf, hends⟩ | ⟨hwordless, _⟩
  · obtain rfl := Command.find.inj hf
    rcases hends entry hentry with ⟨db, hopen, hends⟩ | ⟨hpath, _⟩
    · obtain rfl : (⟨Path.ofText "a.log", [], false⟩ : Database) = db := Except.ok.inj hopen
      have hcontent : ∀ content, disk.read (Path.ofText "a.log") = .ok content →
          ∀ line ∈ Log.rawLines content, ¬ Log.Overlong line := by
        intro content hcontent
        obtain rfl : log = content := Except.ok.inj hcontent
        exact hdigits
      rcases hends hcontent .zero [] with
        hanswers | ⟨failure, hfailed, _⟩ | ⟨⟨line, _, hrefused⟩, _⟩
      · exact hanswers
      · cases hfailed
      · cases hrefused
    · exact absurd ⟨_, rfl, rfl⟩ hpath
  · cases hwordless

/-- The path of the log leads to a directory, and the program is stopped. -/
theorem run_stopped_at_folder :
    let disk : Disk := ⟨[(["a.log"], .folder)], []⟩
    let platform : Platform := .ofEnvironment []
    let entry : Section := [("path", .str "a.log")]
    let s : Section := [("data_dir", .str "."), ("databases", .obj [("d", .obj entry)])]
    let argv : List Text := ["find", "d"]
    let ending := (run platform disk s argv).1
    readInvocation none argv = .ok ⟨none, .find ⟨"d", .obj [], ⟨none, none, false⟩⟩⟩ ∧
      s.Configures "d" entry ∧
      ending = .stopped (.storage ⟨.isFolder, Path.ofText "a.log"⟩) ∧
      ∀ lines outcome, ¬ Answers lines outcome ending := by
  intro disk platform entry s argv ending
  have hentry : s.Configures "d" entry :=
    ⟨⟨_, rfl, rfl⟩, ⟨_, _, rfl⟩, trivial, .inr ⟨_, rfl⟩⟩
  have hending : ending = .stopped (.storage ⟨.isFolder, Path.ofText "a.log"⟩) := rfl
  refine ⟨rfl, hentry, hending, ?_⟩
  intro lines outcome hanswers
  rw [hending] at hanswers
  rcases hanswers with ⟨found, _, hfound⟩ | ⟨said, code, hsaid, _⟩
  · cases hfound
  · cases hsaid

end CommandLine

end RecordLog
