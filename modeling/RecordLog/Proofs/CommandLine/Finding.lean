import RecordLog.Proofs.CommandLine.Arguments
import RecordLog.Proofs.CommandLine.Printing
import RecordLog.Proofs.Database.Found
import RecordLog.Proofs.Json.Lines

/-!
# Finding from the command line

The command `find` asks the service and prints its answer.  `Reports` says what has to be
printed for an outcome: an object with all records and their number, or one line for each
record, or the report of an error.

The command prints the outcome of the find with the sort keys and the projection that it was
given (`findLine_reports`), with one exception: a projection without members is passed on as
no projection, so that all fields are printed where the service, asked in the same words,
keeps none (`findLine_empty_projection`).  Lines are printed as long as output takes them; in
UTF-8 that is, as long as no record has a lone surrogate (`printFound_of_printsUtf8`).
-/

namespace RecordLog

/-- What a handle answers is what its database answers, whatever the handle's counters hold. -/
theorem Handle.find_fst (h : Handle) (document options : Json) (reading : LogReading) :
    (h.find document options reading).1 = h.database.find document options reading := by
  rw [Handle.find, Database.find]
  cases QueryOptions.ofJson options with
  | error e => rfl
  | ok options => rfl

/-- The service answers a find for an object as the database does. -/
theorem Service.find_fst (m : Metrics) (h : Handle) (Q : Members) (options : Json)
    (reading : LogReading) :
    (find m h (.obj Q) options reading).1 = h.database.find (.obj Q) options reading := by
  have hasks : ∃ b, asksForWords (.obj Q) = .ok b := by
    cases Q with
    | nil => exact ⟨false, rfl⟩
    | cons kv later => exact ⟨_, rfl⟩
  obtain ⟨b, hb⟩ := hasks
  have hbegin : ∃ m', beginFind m (.obj Q) = (.ok (), m') := by
    rw [beginFind, hb]
    cases b with
    | true => exact ⟨_, rfl⟩
    | false => exact ⟨_, rfl⟩
  obtain ⟨m', hbegin⟩ := hbegin
  rw [find, hbegin, ← Handle.find_fst]

/-- The report of an error says that it is one, and has its code. -/
theorem QueryError.get?_report (e : QueryError) :
    Members.get? e.report "ok" = some (.bool false) ∧
      Members.get? e.report "code" = some (.str e.kind.code) := by
  obtain ⟨kind, message, details⟩ := e
  cases details with
  | nil => exact ⟨rfl, rfl⟩
  | cons kv details => exact ⟨rfl, rfl⟩

namespace CommandLine

/-! ### What is printed -/

/-- What a command prints reports an outcome: as one object, or on one line for each record,
from which the record is read back.  Of the failures, only those of the query and the log are
spoken of. -/
def Reports (platform : Platform) (lines : Bool) (outcome : Outcome (List Record))
    (ending : Ending) : Prop :=
  match outcome with
  | .ok found =>
    if lines then
      ∃ texts : List Text, Printed platform 0 texts ending ∧
        List.Forall₂ (fun t r => ControlFree t ∧ Json.read t = .ok (.obj r)) texts found
    else
      Printed platform 0
        [Json.write .unicode (.obj (("ok", .bool true) :: Service.findReport found))] ending
  | .error (.query e) => Printed platform 1 [Json.write .unicode (.obj e.report)] ending
  | .error _ => True

/-- How the outcome of a find ends a command. -/
def Ending.ofOutcome (platform : Platform) (lines : Bool) : Outcome (List Record) → Ending
  | .error failure => .ofFailure platform failure
  | .ok found => printFound platform lines found

/-- Readable records are reported. -/
theorem reports_ofOutcome (platform : Platform) (lines : Bool) {outcome : Outcome (List Record)}
    (h : ∀ found, outcome = .ok found → ∀ r ∈ found, Json.Readable (.obj r)) :
    Reports platform lines outcome (.ofOutcome platform lines outcome) := by
  match outcome with
  | .ok found =>
      cases lines with
      | false => exact printed_printingLines platform 0 (foundLines false found)
      | true =>
          refine ⟨_, printed_printingLines platform 0 (foundLines true found), ?_⟩
          rw [foundLines, if_pos rfl, List.forall₂_map_left_iff]
          exact List.forall₂_same.mpr fun r hr =>
            ⟨Json.controlFree_write Json.Style.printable_unicode _,
              Json.read_write (h found rfl r hr)⟩
  | .error (.query e) => exact printed_printingLines platform 1 _
  | .error (.storage _) | .error (.textFields _ _) | .error .unsuitable | .error .memberless
  | .error .absent | .error .malformed | .error .overflow | .error .notYaml
  | .error .unprintable => exact trivial

/-! ### What is asked -/

/-- Options without members count as not given.  That is no difference for sort keys. -/
theorem ofJson_options (S P : Members) (lines : Bool) :
    QueryOptions.ofJson (Presentation.options ⟨some S, some P, lines⟩) =
      QueryOptions.ofJson (.obj (("sort", .obj S) ::
        if P = [] then [] else [("projection", .obj P)])) := by
  cases P with
  | nil =>
      cases S with
      | nil => rfl
      | cons key keys => rfl
  | cons field fields =>
      cases S with
      | nil => rfl
      | cons key keys => rfl

/-! ### Output in UTF-8 -/

/-- The report of records has a lone surrogate if and only if a record does. -/
theorem surrogateFree_report_iff {found : List Record} :
    Json.SurrogateFree (.obj (("ok", .bool true) :: Service.findReport found)) ↔
      ∀ r ∈ found, Json.SurrogateFree (.obj r) := by
  have hkeys : ∀ key ∈ [Text.ofString "ok", Text.ofString "matches", Text.ofString "count"],
      ∀ c ∈ key, ¬ c.isSurrogate := by decide
  have hfound : Json.ItemTextsHold (fun c => ¬ c.isSurrogate) (found.map .obj) ↔
      ∀ r ∈ found, Json.SurrogateFree (.obj r) :=
    Json.itemTextsHold_iff.trans List.forall_mem_map
  rw [← hfound]
  constructor
  · rintro ⟨_, _, _, hmatches, _⟩
    exact hmatches
  · intro hmatches
    exact ⟨hkeys "ok" (by decide), trivial, hkeys "matches" (by decide), hmatches,
      hkeys "count" (by decide), trivial, trivial⟩

/-- The lines that say what was found have a lone surrogate if and only if a record does. -/
theorem surrogateFree_foundLines_iff (lines : Bool) (found : List Record) :
    (∀ line ∈ foundLines lines found, ∀ c ∈ line, ¬ c.isSurrogate) ↔
      ∀ r ∈ found, Json.SurrogateFree (.obj r) := by
  cases lines with
  | true =>
      rw [foundLines, if_pos rfl, List.forall_mem_map]
      exact forall₂_congr fun r _ => Json.surrogateFree_write_iff
  | false =>
      rw [foundLines, if_neg Bool.false_ne_true, List.forall_mem_singleton,
        Json.surrogateFree_write_iff, surrogateFree_report_iff]

/-- **Output in UTF-8 takes what was found if and only if no record has a lone surrogate.**
Then all of it is printed; else the program is stopped. -/
theorem printFound_of_printsUtf8 {platform : Platform} (h : platform.PrintsUtf8) (lines : Bool)
    (found : List Record) :
    ((∀ r ∈ found, Json.SurrogateFree (.obj r)) →
      printFound platform lines found = ⟨.ok 0, (foundLines lines found).flatMap ended⟩) ∧
    (¬ (∀ r ∈ found, Json.SurrogateFree (.obj r)) →
      (printFound platform lines found).status = .error .unprintable) := by
  have htaken : (∀ line ∈ foundLines lines found, platform.prints line = true) ↔
      ∀ r ∈ found, Json.SurrogateFree (.obj r) := by
    rw [← surrogateFree_foundLines_iff]
    exact forall₂_congr fun line _ => h.prints_iff
  have hprinted := printed_printingLines platform 0 (foundLines lines found)
  refine ⟨fun hfree => hprinted.eq_of_prints (htaken.mpr hfree), fun hlone => ?_⟩
  rw [← htaken] at hlone
  push Not at hlone
  obtain ⟨line, hline, hrefused⟩ := hlone
  exact hprinted.status_of_refused hline (Bool.eq_false_iff.mpr hrefused)

/-! ### The command -/

section

variable {platform : Platform} {disk : Disk} {s s' : Section} {database : Database}
  {db query sort projection : Text} {Q S P : Members}

/-- The command ends with the outcome of a find over the disk. -/
theorem run_findLine (hdb : classify knownOptions db = .plain db)
    (hquery : Json.read query = .ok (.obj Q)) (hsort : Json.read sort = .ok (.obj S))
    (hprojection : Json.read projection = .ok (.obj P))
    (hopen : Service.openDatabase s platform disk db true = (.ok database, s')) (lines : Bool) :
    run platform disk s (findLine db query sort projection lines) =
      (.ofOutcome platform lines (database.find (.obj Q)
        (.obj (("sort", .obj S) :: if P = [] then [] else [("projection", .obj P)]))
        (database.readFrom disk)), s') := by
  have hfind : database.find (.obj Q) (Presentation.options ⟨some S, some P, lines⟩)
      (database.readFrom disk) = database.find (.obj Q)
        (.obj (("sort", .obj S) :: if P = [] then [] else [("projection", .obj P)]))
        (database.readFrom disk) := by
    rw [Database.find, ofJson_options, ← Database.find]
  rw [run, readInvocation_findLine hdb hquery hsort hprojection lines, ← hfind]
  simp only [reload, runCommand, runFind, hopen, Service.find_fst, Handle.new]
  cases database.find (.obj Q) (Presentation.options ⟨some S, some P, lines⟩)
    (database.readFrom disk) with
  | error failure => rfl
  | ok found => rfl

/-- **The command reports what the service answers.**  If the texts of a command line are
those of a query, of sort keys and of a projection that has members, the outcome of the
find with these options is printed: whichever database the name opens, whatever its
log holds, and in either form, up to the first line that output cannot take.  If the
projection has no members, it is the outcome of the find without one.  Output in UTF-8 takes
all lines of what is found, and the command succeeds, if no record has a lone surrogate; else
the program is stopped. -/
theorem findLine_reports (hdb : classify knownOptions db = .plain db)
    (hquery : Json.read query = .ok (.obj Q)) (hsort : Json.read sort = .ok (.obj S))
    (hprojection : Json.read projection = .ok (.obj P))
    (hopen : Service.openDatabase s platform disk db true = (.ok database, s')) (lines : Bool)
    (m : Metrics) (records : List Record) :
    (P ≠ [] →
      Reports platform lines
        (Service.find m ⟨database, records⟩ (.obj Q)
          (.obj [("sort", .obj S), ("projection", .obj P)]) (database.readFrom disk)).1
        (run platform disk s (findLine db query sort projection lines)).1) ∧
    (P = [] →
      Reports platform lines
        (Service.find m ⟨database, records⟩ (.obj Q) (.obj [("sort", .obj S)])
          (database.readFrom disk)).1
        (run platform disk s (findLine db query sort projection lines)).1) ∧
    (platform.PrintsUtf8 → ∀ found,
      (Service.find m ⟨database, records⟩ (.obj Q)
        (.obj (("sort", .obj S) :: if P = [] then [] else [("projection", .obj P)]))
        (database.readFrom disk)).1 = .ok found →
      let ending := (run platform disk s (findLine db query sort projection lines)).1
      ((∀ r ∈ found, Json.SurrogateFree (.obj r)) →
        ending = ⟨.ok 0, (foundLines lines found).flatMap ended⟩) ∧
      (¬ (∀ r ∈ found, Json.SurrogateFree (.obj r)) → ending.status = .error .unprintable)) := by
  have hreports : ∀ options,
      Reports platform lines (database.find (.obj Q) options (database.readFrom disk))
        (.ofOutcome platform lines (database.find (.obj Q) options (database.readFrom disk))) :=
    fun _ => reports_ofOutcome platform lines fun _ => Database.find_readable
  rw [run_findLine hdb hquery hsort hprojection hopen, Service.find_fst, Service.find_fst,
    Service.find_fst]
  refine ⟨?_, ?_, ?_⟩
  · intro hP
    rw [if_neg hP]
    exact hreports _
  · intro hP
    rw [if_pos hP]
    exact hreports _
  · intro hprints found hfound
    rw [hfound]
    exact printFound_of_printsUtf8 hprints lines found

end

/-- Two records are sorted and projected, and printed on two lines. -/
theorem findLine_reports_two_records :
    let db : Text := "a.log"
    let log : Octets :=
      [0x45, 0x7B, 0x22, 0x5F, 0x69, 0x64, 0x22, 0x3A, 0x22, 0x78, 0x22, 0x2C, 0x22, 0x6E, 0x22,
        0x3A, 0x30, 0x7D, 0x0A, 0x45, 0x7B, 0x22, 0x5F, 0x69, 0x64, 0x22, 0x3A, 0x22, 0x79, 0x22,
        0x7D]
    let disk : Disk := ⟨[([db], .file log)], []⟩
    let platform : Platform := .ofEnvironment []
    let database : Database := ⟨Path.ofText db, [], false⟩
    let S : Members := [("_id", .str "desc")]
    let P : Members := [("_id", .bool true)]
    let found : List Record := [[("_id", .str "y")], [("_id", .str "x")]]
    let argv := findLine db (Json.write .unicode (.obj [])) (Json.write .unicode (.obj S))
      (Json.write .unicode (.obj P)) true
    (Service.find .zero (.new database) (.obj []) (.obj [("sort", .obj S), ("projection", .obj P)])
        (database.readFrom disk)).1 = .ok found ∧
      Reports platform true (.ok found) (run platform disk [] argv).1 := by
  intro db log disk platform database S P found argv
  have hopen : (Service.openDatabase [] platform disk db true).1 = .ok database := rfl
  have hquery : Json.Readable (.obj []) := ⟨List.nodup_nil, trivial⟩
  have hsort : Json.Readable (.obj S) := ⟨List.nodup_singleton _, trivial, trivial⟩
  have hprojection : Json.Readable (.obj P) := ⟨List.nodup_singleton _, trivial, trivial⟩
  have hopened : Service.openDatabase [] platform disk db true =
      (.ok database, (Service.openDatabase [] platform disk db true).2) := Prod.ext hopen rfl
  have hreports := (findLine_reports rfl (Json.read_write hquery) (Json.read_write hsort)
    (Json.read_write hprojection) hopened true .zero []).1 (List.cons_ne_nil _ _)
  exact ⟨rfl, hreports⟩

/-- A projection without members keeps no field of a record if the service is asked, and the
whole record if the command is. -/
theorem findLine_empty_projection :
    let db : Text := "a.log"
    let log : Octets := [0x45, 0x7B, 0x22, 0x5F, 0x69, 0x64, 0x22, 0x3A, 0x31, 0x7D, 0x0A]
    let disk : Disk := ⟨[([db], .file log)], []⟩
    let platform : Platform := .ofEnvironment []
    let database : Database := ⟨Path.ofText db, [], false⟩
    let empty : Json := .obj []
    let argv := findLine db "\x7b\x7d" "\x7b\x7d" "\x7b\x7d" false
    (Service.openDatabase [] platform disk db true).1 = .ok database ∧
      (Service.find .zero (.new database) empty
        (.obj [("sort", empty), ("projection", empty)]) (database.readFrom disk)).1 = .ok [[]] ∧
      Reports platform false (.ok [[("_id", .int 1)]]) (run platform disk [] argv).1 ∧
      ¬ Reports platform false (.ok [[]]) (run platform disk [] argv).1 := by
  intro db log disk platform database empty argv
  have hopen : (Service.openDatabase [] platform disk db true).1 = .ok database := rfl
  have hquery : Json.read "\x7b\x7d" = .ok empty := rfl
  have hfind : database.find empty (.obj [("sort", empty)]) (database.readFrom disk) =
      .ok [[("_id", .int 1)]] := rfl
  have hrun := congrArg Prod.fst
    (run_findLine (s := []) rfl hquery hquery hquery (Prod.ext hopen rfl) false)
  rw [if_pos rfl, hfind] at hrun
  have hprinted : Reports platform false (.ok [[("_id", .int 1)]])
      (run platform disk [] argv).1 := by
    rw [hrun]
    exact printed_printingLines platform 0 _
  refine ⟨hopen, rfl, hprinted, ?_⟩
  intro hempty
  have htaken : ∀ t : Text, ∀ line ∈ [t], platform.prints line = true := fun _ _ _ => rfl
  have hsaid := (hempty.eq_of_prints (htaken _)).symm.trans (hprinted.eq_of_prints (htaken _))
  rw [Ending.mk.injEq, List.flatMap_singleton, List.flatMap_singleton] at hsaid
  have hkeys : ([Text.ofString "ok", Text.ofString "matches", Text.ofString "count"]).Nodup := by
    decide
  have hone : Json.Readable (.int 1) := (by decide : (Text.digits 1).length ≤ Numeral.digitLimit)
  have hreport : ∀ r : Record, Json.Readable (.obj r) →
      Json.Readable (.obj (("ok", .bool true) :: Service.findReport [r])) := fun r hr =>
    ⟨hkeys, trivial, ⟨hr, trivial⟩, hone, trivial⟩
  have hsame := Json.write_injective (hreport [] ⟨List.nodup_nil, trivial⟩)
    (hreport [("_id", .int 1)] ⟨List.nodup_singleton _, hone, trivial⟩)
    (List.append_cancel_right hsaid.2)
  cases hsame

end CommandLine

end RecordLog
