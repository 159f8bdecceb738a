import Mathlib.Data.List.Forall2
import RecordLog.Proofs.CommandLine.Printing
import RecordLog.Proofs.Record.Appending

/-!
# Records that are written as a log

Records are printed one on a line.  These lines become a log when each is marked as an
entry; other lines may stand between them, and a line may end in a line feed alone or in a
carriage return and a line feed.  `LogText` says that a text came about in this way.

Nothing escapes a line here, so the records come back only because a written record holds
no line feed and no carriage return at its end.  What else some readers take for the end of
a line may stand in it.

* `entries_of_logText` finds the marked lines again, in the octets of the text;
* `holds_recordLine` says that each of them holds its record;
* `load_logText` puts the two together.
-/

namespace RecordLog.Log

/-! ### Texts of marked lines -/

/-- What a line ends with before the line feed: nothing, or a carriage return. -/
def returns (crlf : Bool) : Text :=
  if crlf then [CodePoint.ofChar '\r'] else []

/-- A text is a log that has the given lines as its entries, in their order.  Other lines
may stand between them; every line ends in a line feed, and possibly a carriage return
before it. -/
inductive LogText : List Text → Text → Prop
  /-- No line. -/
  | nil : LogText [] []
  /-- A line behind the mark. -/
  | entry (line : Text) (crlf : Bool) {lines : List Text} {t : Text} (later : LogText lines t) :
      LogText (line :: lines) (entryMark :: line ++ returns crlf ++ lineFeed :: t)
  /-- A line without the mark. -/
  | other (line : Text) (crlf : Bool) {lines : List Text} {t : Text}
      (hmark : line.head? ≠ some entryMark) (hfeed : lineFeed ∉ line) (later : LogText lines t) :
      LogText lines (line ++ returns crlf ++ lineFeed :: t)

/-- The line of a record, as it is printed. -/
def recordLine (r : Record) : Text :=
  Json.write .unicode (.obj r)

/-! ### Marked lines as octets -/

/-- Texts are encoded one after the other. -/
theorem encodeUtf8_append (s t : Text) :
    Text.encodeUtf8 (s ++ t) = Text.encodeUtf8 s ++ Text.encodeUtf8 t :=
  List.flatMap_append

/-- The first line of a text is the first line of its octets. -/
theorem rawLines_encodeUtf8_cons {line : Text} (hfeed : lineFeed ∉ line) (t : Text) :
    rawLines (Text.encodeUtf8 (line ++ lineFeed :: t)) =
      Text.encodeUtf8 line :: rawLines (Text.encodeUtf8 t) := by
  have hline : lineFeedOctet ∉ Text.encodeUtf8 line := fun hmem =>
    hfeed ((Text.mem_encodeUtf8 (c := lineFeed) (by decide)).mp hmem)
  have hcut : Text.encodeUtf8 (lineFeed :: t) = lineFeedOctet :: Text.encodeUtf8 t := rfl
  rw [encodeUtf8_append, hcut, rawLines, splitOn_append_sep, splitOn_of_notMem hline]
  rfl

/-- A line is an entry exactly if its text starts with the mark. -/
theorem isEntry_encodeUtf8_iff {line : Text} :
    IsEntry (Text.encodeUtf8 line) ↔ line.head? = some entryMark :=
  Text.head?_encodeUtf8 (c := entryMark) (by decide)

/-- A carriage return at the end adds no line feed. -/
theorem notMem_append_returns {line : Text} (hfeed : lineFeed ∉ line) (crlf : Bool) :
    lineFeed ∉ line ++ returns crlf := by
  have hreturns : ∀ crlf, lineFeed ∉ returns crlf := by decide
  rw [List.mem_append, not_or]
  exact ⟨hfeed, hreturns crlf⟩

/-- The octets are those of a marked line. -/
def IsMarked (line : Text) (octets : Octets) : Prop :=
  ∃ crlf, octets = Text.encodeUtf8 (entryMark :: (line ++ returns crlf))

/-- The entries of a log are its marked lines. -/
theorem entries_of_logText {lines : List Text} {t : Text} (h : LogText lines t)
    (hlines : ∀ line ∈ lines, lineFeed ∉ line) :
    List.Forall₂ IsMarked lines (entries (rawLines (Text.encodeUtf8 t))) := by
  induction h with
  | nil => exact .nil
  | entry line crlf later ih =>
      obtain ⟨hline, hlater⟩ := List.forall_mem_cons.mp hlines
      have hmark : lineFeed ∉ entryMark :: (line ++ returns crlf) := by
        have hne : lineFeed ≠ entryMark := by decide
        exact List.not_mem_cons_of_ne_of_not_mem hne (notMem_append_returns hline crlf)
      have hentry : IsEntry (Text.encodeUtf8 (entryMark :: (line ++ returns crlf))) :=
        isEntry_encodeUtf8_iff.mpr rfl
      rw [List.cons_append, rawLines_encodeUtf8_cons hmark, entries_cons_of_isEntry hentry]
      exact .cons ⟨crlf, rfl⟩ (ih hlater)
  | other line crlf hmark hfeed later ih =>
      have hentry : ¬ IsEntry (Text.encodeUtf8 (line ++ returns crlf)) := by
        rw [isEntry_encodeUtf8_iff]
        cases line with
        | nil => cases crlf <;> decide
        | cons c line => exact hmark
      rw [rawLines_encodeUtf8_cons (notMem_append_returns hfeed crlf),
        entries_cons_of_not_isEntry hentry]
      exact ih hlines

/-! ### Lines of records -/

/-- The line of a record has no line feed in it. -/
theorem lineFeed_notMem_recordLine (r : Record) : lineFeed ∉ recordLine r :=
  (Json.controlFree_write Json.Style.printable_unicode _).notMem (by decide)

/-- The carriage return that a line ends in is no part of its record. -/
theorem dropTrailing_recordLine (r : Record) (crlf : Bool) :
    Text.dropTrailing (· = CodePoint.ofChar '\r') (recordLine r ++ returns crlf) =
      recordLine r := by
  have hbrace : ∃ front, recordLine r = front ++ [CodePoint.ofChar '\x7D'] := ⟨_, rfl⟩
  obtain ⟨front, hfront⟩ := hbrace
  have hnone : Text.dropTrailing (· = CodePoint.ofChar '\r') (recordLine r) = recordLine r := by
    rw [hfront]
    exact Text.dropTrailing_concat_of_not (by decide) front
  cases crlf with
  | false => rw [returns, if_neg Bool.false_ne_true, List.append_nil, hnone]
  | true =>
      rw [returns, if_pos rfl, Text.dropTrailing, List.reverse_append, List.reverse_singleton,
        List.singleton_append, List.dropWhile_cons_of_pos (by decide), ← Text.dropTrailing, hnone]

/-- A record can be written as an entry: a document gives it, it has an identity, and UTF-8
has octets for its texts. -/
structure Writable (r : Record) : Prop where
  readable : Json.Readable (.obj r)
  identified : Members.hasKey r Record.idField
  surrogateFree : Json.SurrogateFree (.obj r)

/-- The line of a record has no lone surrogate. -/
theorem surrogateFree_recordLine {r : Record} (h : Writable r) :
    (recordLine r).hasSurrogate = false := by
  rw [Text.hasSurrogate, List.any_eq_false]
  exact Json.surrogateFree_write_iff.mpr h.surrogateFree

/-- The marked line of a record holds it. -/
theorem holds_recordLine {r : Record} (h : Writable r) {octets : Octets}
    (hoctets : IsMarked (recordLine r) octets) : Holds octets r := by
  obtain ⟨crlf, rfl⟩ := hoctets
  refine ⟨recordLine r, ⟨recordLine r ++ returns crlf, rfl, ?_, ?_⟩, Json.read_write h.readable,
    h.identified⟩
  · have hreturns : ∀ crlf, ∀ c ∈ returns crlf, ¬ c.isSurrogate := by decide
    exact List.forall_mem_append.mpr
      ⟨Json.surrogateFree_write_iff.mpr h.surrogateFree, hreturns crlf⟩
  · exact (dropTrailing_recordLine r crlf).symm

/-- **Records that are written as a log are loaded again.**  The lines that a command prints
for them, one for each, become the entries of any log that is made of them; the log gives
the records back, in their order, whatever stands between the entries.  Output must take texts
without lone surrogates, which UTF-8 has octets for. -/
theorem load_logText (path : Path) {records : List Record} (h : ∀ r ∈ records, Writable r) :
    (∀ platform : Platform, (∀ t : Text, t.hasSurrogate = false → platform.prints t = true) →
      ∃ printed, CommandLine.printFound platform true records = ⟨.ok 0, printed⟩ ∧
        splitOn lineFeed printed = records.map recordLine ++ [[]]) ∧
      ∀ t, LogText (records.map recordLine) t →
        load path false (Text.encodeUtf8 t) = .ok records := by
  have hlines : ∀ line ∈ records.map recordLine, lineFeed ∉ line :=
    List.forall_mem_map.mpr fun r _ => lineFeed_notMem_recordLine r
  constructor
  · intro platform hprints
    have htaken : ∀ line ∈ CommandLine.foundLines true records, platform.prints line = true :=
      List.forall_mem_map.mpr fun r hr => hprints _ (surrogateFree_recordLine (h r hr))
    refine ⟨_, (CommandLine.printed_printingLines platform 0 _).eq_of_prints htaken, ?_⟩
    exact Json.splitOn_lines hlines
  · intro t ht
    have hentries := entries_of_logText ht hlines
    rw [List.forall₂_map_left_iff] at hentries
    have hholds : List.Forall₂ Holds (entries (rawLines (Text.encodeUtf8 t))) records := by
      have hwritable := (List.forall₂_and_left ..).mpr ⟨h, hentries⟩
      exact (hwritable.imp fun _ _ hr => holds_recordLine hr.1 hr.2).flip
    exact load_eq_ok_iff.mpr (readContent_eq_ok hholds)

/-- A record that holds what other readers take for the end of a line, and a line between
carriage returns that is no entry. -/
theorem load_logText_line_separators :
    let path : Path := ⟨.here, ["db.log"]⟩
    let r : Record := [("_id", .str "\u2028\u0085\x0b\x0c\r\n")]
    let t : Text := "D" ++ returns true ++ lineFeed ::
      (entryMark :: recordLine r ++ returns true ++ lineFeed :: [])
    (∀ s ∈ [r], Writable s) ∧ LogText [recordLine r] t ∧
      load path false (Text.encodeUtf8 t) = .ok [r] := by
  intro path r t
  have hreadable : Json.Readable (.obj r) := ⟨List.nodup_singleton _, trivial, trivial⟩
  have hpoints : ∀ c ∈ Text.ofString "\u2028\u0085\x0b\x0c\r\n", ¬ c.isSurrogate := by decide
  have hfree : Json.SurrogateFree (.obj r) := ⟨by decide, hpoints, trivial⟩
  have hwritable : ∀ s ∈ [r], Writable s :=
    List.forall_mem_singleton.mpr ⟨hreadable, rfl, hfree⟩
  have ht : LogText [recordLine r] t := .other "D" true (by decide) (by decide) (.entry _ true .nil)
  exact ⟨hwritable, ht, (load_logText path hwritable).2 t ht⟩

end RecordLog.Log
