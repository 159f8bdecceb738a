import Mathlib.Data.List.Forall2
import RecordLog.Proofs.Json.LongInteger
import RecordLog.Proofs.Record.LogLines

/-!
# Loading a log

What a load has as its result is said in terms of the lines of the log.

* `load_records_or_report`: a load gives the records of the entries, or reports the
  line at which it stops, provided that no payload holds an integer of too many digits.
  Lines that are no entries do not matter, whatever stands in them;
* `load_outcomes` has no such condition, and covers the check for repeated identities.
  Besides the two outcomes above and that of the check there is one more, which is
  no report: the load stops at an entry whose payload holds such an integer.
  `load_onesLog` is a log with this outcome.
-/

namespace RecordLog.Log

/-- The report of an entry, with its line and the path of the log. -/
def entryReport (path : Path) (reason : Text) (n : Nat) : QueryError :=
  ⟨.undecodableEntry, reason, [("line", .ofNat n), ("path", .str path.render)]⟩

/-- An entry that cannot be decoded is reported with its line and the path. -/
theorem locateError_undecodableEntry (path : Path) (reason : Text) (n : Nat) :
    locateError path (.query (.undecodableEntry reason n)) =
      .query (entryReport path reason n) :=
  rfl

/-- A log that cannot be read fails to load with that failure, located. -/
theorem load_of_readContent_error {content : Octets} {e : Failure}
    (h : readContent content = .error e) (path : Path) (strictIds : Bool) :
    load path strictIds content = .error (locateError path e) := by
  rw [load, h]

/-- The check fails with the identity that is repeated, and its position. -/
theorem checkDistinct_eq_error {records : List Record} {e : QueryError}
    (h : Record.checkDistinct records = .error e) :
    ∃ id position, e = .duplicateIdentity id position := by
  unfold Record.checkDistinct at h
  split at h
  · cases h
  · next r position _ => exact ⟨r.id, position, (Except.error.inj h).symm⟩

/-- A log that was read is loaded, unless identities have to be distinct and are not. -/
theorem load_of_readContent_ok {content : Octets} {records : List Record}
    (h : readContent content = .ok records) (path : Path) (strictIds : Bool) :
    load path strictIds content = .ok records ∨
      (strictIds = true ∧ ∃ id position,
        load path strictIds content = .error (.query (.duplicateIdentity id position))) := by
  rw [load, h]
  cases strictIds with
  | false => exact .inl rfl
  | true =>
      cases hdistinct : Record.checkDistinct records with
      | ok _ => exact .inl (by simp only [hdistinct, if_true])
      | error e =>
          obtain ⟨id, position, rfl⟩ := checkDistinct_eq_error hdistinct
          exact .inr ⟨rfl, id, position, by simp only [hdistinct, if_true]⟩

/-- A load that stops at a line reports it, unless it has an integer of too many digits. -/
theorem load_stopsAt {content line : Octets} {n : Nat} (h : StopsAt (rawLines content) line n)
    (path : Path) (strictIds : Bool) :
    (Overlong line ∧ load path strictIds content = .error .malformed) ∨
      (¬ Overlong line ∧ ∃ reason,
        load path strictIds content = .error (.query (entryReport path reason n))) := by
  rcases readContent_stopsAt h with ⟨hlong, hread⟩ | ⟨hlong, reason, hread⟩
  · exact .inl ⟨hlong, load_of_readContent_error hread path strictIds⟩
  · refine .inr ⟨hlong, reason, ?_⟩
    rw [load_of_readContent_error hread, locateError_undecodableEntry]

/-! ### Lines that are no entries -/

/-- The lines are the same, or neither of them is an entry. -/
def Alike (line other : Octets) : Prop :=
  line = other ∨ (¬ IsEntry line ∧ ¬ IsEntry other)

/-- A line that is like an undecodable one is that line. -/
theorem Alike.undecodable {line other : Octets} (h : Alike line other) (hline : Undecodable line) :
    line = other :=
  h.resolve_right fun hneither => hneither.1 hline.1

/-- A line that is like a decodable one is decodable, or no entry. -/
theorem Alike.not_undecodable {line other : Octets} (h : Alike line other)
    (hline : ¬ Undecodable line) : ¬ Undecodable other := by
  rcases h with rfl | ⟨_, hother⟩
  · exact hline
  · exact fun hbad => hother hbad.1

/-- Lines that are like decodable ones have no undecodable entry among them. -/
theorem not_undecodable_of_alike {lines others : List Octets}
    (h : List.Forall₂ Alike lines others) (hlines : ∀ line ∈ lines, ¬ Undecodable line) :
    ∀ line ∈ others, ¬ Undecodable line := by
  induction h with
  | nil => exact nofun
  | cons hline _ ih =>
      obtain ⟨hfirst, hlater⟩ := List.forall_mem_cons.mp hlines
      exact List.forall_mem_cons.mpr ⟨hline.not_undecodable hfirst, ih hlater⟩

/-- Lines that are alike fail to decode at the same line, with the same reason. -/
theorem decodeLines_error_of_alike {lines others : List Octets}
    (h : List.Forall₂ Alike lines others) {number : Nat} {e : QueryError}
    (herror : decodeLines number lines = .error e) : decodeLines number others = .error e := by
  induction h generalizing number with
  | nil => cases herror
  | @cons line other lines others hline _ ih =>
      by_cases hbad : Undecodable line
      · obtain rfl := hline.undecodable hbad
        obtain ⟨reason, hreason⟩ := decodeLine_of_undecodable hbad number
        rw [decodeLines, hreason] at herror ⊢
        exact herror
      · have hother := hline.not_undecodable hbad
        rw [decodeLines, decodeLine_of_not_undecodable hbad] at herror
        rw [decodeLines, decodeLine_of_not_undecodable hother]
        cases hlater : decodeLines (number + 1) lines with
        | ok texts =>
            rw [hlater] at herror
            cases herror
        | error later =>
            rw [hlater] at herror
            obtain rfl : later = e := Except.error.inj herror
            rw [ih hlater]
            rfl

/-- The texts of lines that are alike are read alike. -/
theorem readLines_of_alike {lines others : List Octets} (h : List.Forall₂ Alike lines others)
    (number : Nat) :
    readLines number (lines.map lineText) = readLines number (others.map lineText) := by
  induction h generalizing number with
  | nil => rfl
  | @cons line other lines others hline _ ih =>
      rw [List.map_cons, List.map_cons]
      rcases hline with rfl | ⟨hline, hother⟩
      · simp only [readLines, ih]
      · rw [readLines_cons_not_isEntry hline, readLines_cons_not_isEntry hother, ih]

/-- Logs that differ only in lines that are no entries are read alike. -/
theorem readContent_of_alike {content other : Octets}
    (h : List.Forall₂ Alike (rawLines content) (rawLines other)) :
    readContent content = readContent other := by
  -- Either the first pass stops, in both logs for the same line, or it stops in neither.
  rcases exists_isFirst_or Undecodable (rawLines content) with
    ⟨line, n, before, after, hlines, hbefore, hline, rfl⟩ | hdecodable
  · obtain ⟨reason, hreason⟩ := decodeLines_eq_error hbefore hline after 1
    rw [← hlines] at hreason
    have hother := decodeLines_error_of_alike h hreason
    rw [rawLines] at hreason hother
    rw [readContent, readContent, decode, decode, hreason, hother]
  · have hothers := not_undecodable_of_alike h hdecodable
    rw [readContent_of_decodable hdecodable, readContent_of_decodable hothers,
      readLines_of_alike h]

/-- One line that is no entry may be replaced by another one. -/
theorem load_replace {content line other : Octets} {before after : List Octets}
    (hlines : rawLines content = before ++ line :: after) (hline : ¬ IsEntry line)
    (hother : ¬ IsEntry other) (hfeed : lineFeedOctet ∉ other) (path : Path) (strictIds : Bool) :
    load path strictIds (joined [lineFeedOctet] (before ++ other :: after)) =
      load path strictIds content := by
  have hothers : rawLines (joined [lineFeedOctet] (before ++ other :: after)) =
      before ++ other :: after := by
    apply splitOn_joined (List.append_ne_nil_of_right_ne_nil _ (List.cons_ne_nil _ _))
    intro l hl
    rcases List.mem_append.mp hl with hl | hl
    · exact notMem_of_mem_splitOn (hlines ▸ List.mem_append_left _ hl)
    · rcases List.mem_cons.mp hl with rfl | hl
      · exact hfeed
      · exact notMem_of_mem_splitOn
          (hlines ▸ List.mem_append_right before (List.mem_cons_of_mem line hl))
  have halike : List.Forall₂ Alike (rawLines (joined [lineFeedOctet] (before ++ other :: after)))
      (rawLines content) := by
    have hsame : ∀ lines : List Octets, List.Forall₂ Alike lines lines := fun lines =>
      List.forall₂_same.mpr fun _ _ => .inl rfl
    rw [hothers, hlines]
    exact List.rel_append (hsame before) (.cons (.inr ⟨hother, hline⟩) (hsame after))
  rw [load, load, readContent_of_alike halike]

/-! ### Loads without the check for identities -/

/-- **A load gives the records of the entries, or reports the line at which it stops.**
The payloads must not hold integers of too many digits. -/
theorem load_records_or_report (path : Path) (content : Octets)
    (hdigits : ∀ line ∈ rawLines content, ¬ Overlong line) :
    (∀ records, load path false content = .ok records ↔
        List.Forall₂ Holds (entries (rawLines content)) records) ∧
      ((∃ records, load path false content = .ok records) ↔
        ∀ line ∈ rawLines content, IsEntry line → ∃ r, Holds line r) ∧
      ((∀ records, load path false content ≠ .ok records) →
        ∃ line n reason, StopsAt (rawLines content) line n ∧
          load path false content = .error (.query (entryReport path reason n))) ∧
      ∀ before line after other, rawLines content = before ++ line :: after →
        ¬ IsEntry line → ¬ IsEntry other → lineFeedOctet ∉ other → ∀ strictIds,
          load path strictIds (joined [lineFeedOctet] (before ++ other :: after)) =
            load path strictIds content := by
  have hok : ∀ records, List.Forall₂ Holds (entries (rawLines content)) records →
      load path false content = .ok records := fun records hrecords =>
    (load_of_readContent_ok (readContent_eq_ok hrecords) path false).resolve_right (by simp)
  have hstop : ∀ line n, StopsAt (rawLines content) line n → ∃ reason,
      load path false content = .error (.query (entryReport path reason n)) := by
    intro line n hline
    rcases load_stopsAt hline path false with ⟨hlong, _⟩ | ⟨_, hreport⟩
    · exact absurd hlong (hdigits line hline.mem)
    · exact hreport
  have hrecords : ∀ records, load path false content = .ok records ↔
      List.Forall₂ Holds (entries (rawLines content)) records := by
    intro records
    refine ⟨fun hload => ?_, hok records⟩
    rcases readContent_cases content with ⟨others, hothers, _⟩ | ⟨line, n, hline⟩
    · obtain rfl := Except.ok.inj (hload.symm.trans (hok others hothers))
      exact hothers
    · obtain ⟨reason, hreport⟩ := hstop line n hline
      rw [hload] at hreport
      cases hreport
  refine ⟨hrecords, ?_, ?_, ?_⟩
  · simp only [hrecords, exists_forall₂_holds_iff, Faulty, not_and, not_forall_not]
  · intro hfails
    rcases readContent_cases content with ⟨records, hrecords, _⟩ | ⟨line, n, hline⟩
    · exact absurd (hok records hrecords) (hfails records)
    · obtain ⟨reason, hreport⟩ := hstop line n hline
      exact ⟨line, n, reason, hline, hreport⟩
  · intro before line after other hlines hline hother hfeed strictIds
    exact load_replace hlines hline hother hfeed path strictIds

/-- A record whose line ends in a carriage return, and a line that is not UTF-8. -/
theorem load_records_or_report_one_record :
    let path : Path := ⟨.here, ["db.log"]⟩
    let content : Octets := [0x45, 0x7B, 0x22, 0x5F, 0x69, 0x64, 0x22, 0x3A, 0x22, 0x61, 0x22, 0x7D,
      0x0D, 0x0A, 0x44, 0xFF]
    (∀ line ∈ rawLines content, ¬ Overlong line) ∧
      load path false content = .ok [[("_id", .str "a")]] := by
  intro path content
  let line : Octets :=
    [0x45, 0x7B, 0x22, 0x5F, 0x69, 0x64, 0x22, 0x3A, 0x22, 0x61, 0x22, 0x7D, 0x0D]
  have hlines : rawLines content = [line, [0x44, 0xFF]] := rfl
  have hholds : Holds line [("_id", .str "a")] := ⟨_, carries_iff.mpr rfl, rfl, rfl⟩
  have hdigits : ∀ l ∈ rawLines content, ¬ Overlong l := by
    rw [hlines, List.forall_mem_cons, List.forall_mem_singleton]
    exact ⟨fun hlong => hlong.faulty.2 _ hholds, fun hlong => absurd hlong.faulty.1 (by decide)⟩
  refine ⟨hdigits, ((load_records_or_report path content hdigits).1 _).mpr ?_⟩
  have hentries : entries (rawLines content) = [line] := rfl
  rw [hentries]
  exact .cons hholds .nil

/-! ### All loads -/

/-- **What a load can have as its result.**  It gives records, or reports an entry by
its line and the path, or reports a repeated identity; and if it stops in any other way,
it does so at an entry whose payload holds an integer of too many digits. -/
theorem load_outcomes (path : Path) (strictIds : Bool) (content : Octets) :
    ((∃ records, load path strictIds content = .ok records) ∨
        (∃ line n reason, StopsAt (rawLines content) line n ∧
          load path strictIds content = .error (.query (entryReport path reason n))) ∨
        (strictIds = true ∧ ∃ id position,
          load path strictIds content = .error (.query (.duplicateIdentity id position))) ∨
        load path strictIds content = .error .malformed) ∧
      (load path strictIds content = .error .malformed ↔
        ∃ line n, StopsAt (rawLines content) line n ∧ Overlong line) ∧
      ∀ line, Overlong line →
        ∃ payload, Carries line payload ∧ Json.HoldsLongInteger payload := by
  refine ⟨?_, ⟨?_, ?_⟩, ?_⟩
  · rcases readContent_cases content with ⟨records, _, hread⟩ | ⟨line, n, hline⟩
    · rcases load_of_readContent_ok hread path strictIds with hload | hduplicate
      · exact .inl ⟨records, hload⟩
      · exact .inr (.inr (.inl hduplicate))
    · rcases load_stopsAt hline path strictIds with ⟨_, hload⟩ | ⟨_, reason, hload⟩
      · exact .inr (.inr (.inr hload))
      · exact .inr (.inl ⟨line, n, reason, hline, hload⟩)
  · intro hmalformed
    rcases readContent_cases content with ⟨records, _, hread⟩ | ⟨line, n, hline⟩
    · rcases load_of_readContent_ok hread path strictIds with hload | ⟨_, id, position, hload⟩
      · rw [hload] at hmalformed
        cases hmalformed
      · rw [hload] at hmalformed
        cases hmalformed
    · rcases load_stopsAt hline path strictIds with ⟨hlong, _⟩ | ⟨_, reason, hload⟩
      · exact ⟨line, n, hline, hlong⟩
      · rw [hload] at hmalformed
        cases hmalformed
  · rintro ⟨line, n, hline, hlong⟩
    rcases load_stopsAt hline path strictIds with ⟨_, hload⟩ | ⟨hshort, _⟩
    · exact hload
    · exact absurd hlong hshort
  · rintro line ⟨payload, hcarries, hread⟩
    exact ⟨payload, hcarries, Json.read_eq_tooManyDigits hread⟩

/-! ### A load that is not reported -/

/-- One entry, whose identity is an integer of too many digits. -/
def onesLog : Octets :=
  Text.encodeUtf8 (entryMark :: Json.onesDocument 4301)

/-- The log of ones is one entry with too many digits. -/
theorem overlong_onesLog : Overlong onesLog := by
  have hpoints : ∀ c ∈ Json.onesDocument 4301, ¬ c.isSurrogate := by
    intro c hc
    have hascii := (Json.val_of_mem_onesDocument c hc).1
    rw [Text.isSurrogate_iff]
    omega
  have hend : Json.onesDocument 4301 =
      Text.dropTrailing (· = CodePoint.ofChar '\r') (Json.onesDocument 4301) := by
    rw [Json.onesDocument, ← List.append_assoc]
    exact (Text.dropTrailing_concat_of_not (by decide) _).symm
  exact ⟨_, ⟨_, rfl, hpoints, hend⟩, Json.read_onesDocument (by decide)⟩

/-- **A load that neither gives records nor reports anything.** -/
theorem load_onesLog :
    let path : Path := ⟨.here, ["db.log"]⟩
    load path false onesLog = .error .malformed ∧
      ¬ ((∃ records, load path false onesLog = .ok records) ∨
        ∃ e, load path false onesLog = .error (.query e)) := by
  intro path
  have hlines : rawLines onesLog = [onesLog] := by
    apply splitOn_of_notMem
    intro hfeed
    rcases List.mem_cons.mp ((Text.mem_encodeUtf8 (c := lineFeed) (by decide)).mp hfeed) with
      hmark | hmember
    · exact absurd hmark (by decide)
    · exact (Json.val_of_mem_onesDocument _ hmember).2 rfl
  have hstop : StopsAt (rawLines onesLog) onesLog 1 := by
    have hlong := overlong_onesLog
    rw [hlines]
    refine .inr ⟨?_, [], [], rfl, nofun, hlong.faulty, rfl⟩
    exact List.forall_mem_singleton.mpr hlong.not_undecodable
  have hload : load path false onesLog = .error .malformed := by
    rcases load_stopsAt hstop path false with ⟨_, hload⟩ | ⟨hshort, _⟩
    · exact hload
    · exact absurd overlong_onesLog hshort
  refine ⟨hload, ?_⟩
  rintro (⟨records, hrecords⟩ | ⟨e, hreport⟩)
  · rw [hload] at hrecords
    cases hrecords
  · rw [hload] at hreport
    cases hreport

end RecordLog.Log
