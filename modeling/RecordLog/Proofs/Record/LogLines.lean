import RecordLog.Proofs.Text.Utf8
import RecordLog.Record.Log

/-!
# What the lines of a log hold

A log is decoded and then split again, this time as a text.  The two splits have the
same lines, so what a log means can be said about its lines as octets.

* `Carries`, `Holds`, `Undecodable` and `Overlong` say of one line what it is to a
  load, and `carries_iff` is the link to what the two passes see of the line;
* `decodeLines_eq_ok` and `decodeLines_eq_error` describe the first pass,
  `readLines_append` and `readLines_cons_faulty` the second: up to the first line that
  stops it, a pass goes on, and it stops with the number of this line;
* `readContent_cases` puts the passes together.  A log is read as the records of its
  entries, or reading stops at a line; `StopsAt` says at which, and
  `readContent_stopsAt` with what error.
-/

namespace RecordLog.Log

/-! ### Lines -/

/-- The lines of a log. -/
def rawLines (content : Octets) : List Octets :=
  splitOn lineFeedOctet content

/-- The line is marked as an entry. -/
def IsEntry (line : Octets) : Prop :=
  line.head? = some entryOctet

instance : DecidablePred IsEntry := fun line =>
  inferInstanceAs (Decidable (line.head? = some entryOctet))

/-- The lines that are marked as entries. -/
def entries (lines : List Octets) : List Octets :=
  lines.filter (IsEntry ·)

/-- The line is the UTF-8 of the mark of an entry and a text, and the payload is this
text without the carriage returns at its end. -/
def Carries (line : Octets) (payload : Text) : Prop :=
  ∃ t : Text, Text.encodeUtf8 (entryMark :: t) = line ∧ (∀ c ∈ t, ¬ c.isSurrogate) ∧
    payload = Text.dropTrailing (· = CodePoint.ofChar '\r') t

/-- The payload of the line is read as an object with an identity. -/
def Holds (line : Octets) (r : Record) : Prop :=
  ∃ payload, Carries line payload ∧ Json.read payload = .ok (.obj r) ∧
    Members.hasKey r Record.idField

/-- The line is marked as an entry and holds no record. -/
def Faulty (line : Octets) : Prop :=
  IsEntry line ∧ ∀ r, ¬ Holds line r

/-- The line is marked as an entry and is not UTF-8. -/
def Undecodable (line : Octets) : Prop :=
  IsEntry line ∧ ¬ Text.IsUtf8 line

/-- Reading the payload of the line stops at an integer of too many digits. -/
def Overlong (line : Octets) : Prop :=
  ∃ payload, Carries line payload ∧ Json.read payload = .error .tooManyDigits

/-- The `n`-th line is the first one of some kind; lines are counted from one. -/
def IsFirst (bad : Octets → Prop) (lines : List Octets) (line : Octets) (n : Nat) : Prop :=
  ∃ before after, lines = before ++ line :: after ∧ (∀ l ∈ before, ¬ bad l) ∧ bad line ∧
    n = before.length + 1

/-- Reading stops at the `n`-th line: at the first entry that is not UTF-8, or if there
is none, at the first one that holds no record. -/
def StopsAt (lines : List Octets) (line : Octets) (n : Nat) : Prop :=
  IsFirst Undecodable lines line n ∨
    (∀ l ∈ lines, ¬ Undecodable l) ∧ IsFirst Faulty lines line n

/-- An entry in front is the first of the entries. -/
theorem entries_cons_of_isEntry {line : Octets} (h : IsEntry line) (lines : List Octets) :
    entries (line :: lines) = line :: entries lines :=
  List.filter_cons_of_pos (decide_eq_true h)

theorem entries_cons_of_not_isEntry {line : Octets} (h : ¬ IsEntry line) (lines : List Octets) :
    entries (line :: lines) = entries lines :=
  List.filter_cons_of_neg (by rwa [decide_eq_true_eq])

/-- Some line is the first one of a kind, or there is none of it. -/
theorem exists_isFirst_or (bad : Octets → Prop) (lines : List Octets) :
    (∃ line n, IsFirst bad lines line n) ∨ ∀ l ∈ lines, ¬ bad l := by
  induction lines with
  | nil => exact .inr nofun
  | cons line lines ih =>
      by_cases hbad : bad line
      · exact .inl ⟨line, 1, [], lines, rfl, nofun, hbad, rfl⟩
      · obtain ⟨first, n, before, after, rfl, hbefore, hfirst, rfl⟩ | hall := ih
        · exact .inl ⟨first, _, line :: before, after, rfl,
            List.forall_mem_cons.mpr ⟨hbad, hbefore⟩, hfirst, rfl⟩
        · exact .inr (List.forall_mem_cons.mpr ⟨hbad, hall⟩)

theorem IsFirst.mem {bad : Octets → Prop} {lines : List Octets} {line : Octets} {n : Nat}
    (h : IsFirst bad lines line n) : line ∈ lines := by
  obtain ⟨before, after, rfl, _⟩ := h
  exact List.mem_append_right before List.mem_cons_self

theorem StopsAt.mem {lines : List Octets} {line : Octets} {n : Nat} (h : StopsAt lines line n) :
    line ∈ lines := by
  rcases h with hfirst | ⟨_, hfirst⟩
  · exact hfirst.mem
  · exact hfirst.mem

/-! ### What the passes see of a line -/

/-- The text of a line; it is blank if the line is not UTF-8. -/
def lineText (line : Octets) : Text :=
  match Text.decodeUtf8 line with
  | .ok t => t
  | .error _ => []

/-- The payload of a text stands behind the mark, without the carriage returns at its end. -/
theorem payload?_eq_some_iff {t payload : Text} :
    payload? t = some payload ↔
      ∃ u, t = entryMark :: u ∧ payload = Text.dropTrailing (· = CodePoint.ofChar '\r') u := by
  constructor
  · intro h
    unfold payload? at h
    split at h
    · cases h
    · next c rest hdrop =>
        split at h
        · next hmark =>
            obtain rfl := hmark
            obtain rfl := Option.some.inj h
            -- The returns are cut off the line with its mark, which stays since it is none.
            obtain ⟨dropped, ht⟩ := Text.dropTrailing_prefix (· = CodePoint.ofChar '\r') t
            rw [hdrop, List.cons_append] at ht
            subst ht
            rw [Text.dropTrailing_cons_of_not (by decide)] at hdrop
            exact ⟨_, rfl, (List.tail_eq_of_cons_eq hdrop).symm⟩
        · cases h
  · rintro ⟨u, rfl, rfl⟩
    rw [payload?, Text.dropTrailing_cons_of_not (by decide)]
    exact if_pos rfl

theorem lineText_eq {line : Octets} {t : Text} (h : Text.decodeUtf8 line = .ok t) :
    lineText line = t := by
  rw [lineText, h]

/-- The text of a line that is not UTF-8 is blank. -/
theorem lineText_of_not_isUtf8 {line : Octets} (h : ¬ Text.IsUtf8 line) : lineText line = [] := by
  unfold lineText
  split
  · next t ht => exact absurd (Text.exists_decodeUtf8_iff.mp ⟨t, ht⟩) h
  · rfl

/-- A line carries what is found after the mark in its text. -/
theorem carries_iff {line : Octets} {payload : Text} :
    Carries line payload ↔ payload? (lineText line) = some payload := by
  have hmark : ¬ entryMark.isSurrogate := by decide
  rw [payload?_eq_some_iff]
  constructor
  · rintro ⟨t, hline, hpoints, rfl⟩
    have hdecode : Text.decodeUtf8 line = .ok (entryMark :: t) :=
      Text.decodeUtf8_eq_ok_iff.mpr ⟨hline, List.forall_mem_cons.mpr ⟨hmark, hpoints⟩⟩
    exact ⟨t, lineText_eq hdecode, rfl⟩
  · rintro ⟨t, htext, rfl⟩
    by_cases hutf8 : Text.IsUtf8 line
    · obtain ⟨u, hu⟩ := Text.exists_decodeUtf8_iff.mpr hutf8
      rw [lineText_eq hu] at htext
      subst htext
      obtain ⟨hline, hpoints⟩ := Text.decodeUtf8_eq_ok_iff.mp hu
      exact ⟨t, hline, (List.forall_mem_cons.mp hpoints).2, rfl⟩
    · rw [lineText_of_not_isUtf8 hutf8] at htext
      cases htext

/-- The mark of an entry can be told before the line is decoded. -/
theorem exists_carries_iff {line : Octets} :
    (∃ payload, Carries line payload) ↔ IsEntry line ∧ Text.IsUtf8 line := by
  have hmark : (UInt8.ofNat entryMark.val) = entryOctet := rfl
  constructor
  · rintro ⟨_, t, rfl, hpoints, _⟩
    have hhead := (Text.head?_encodeUtf8 (c := entryMark) (by decide)).mpr
      (List.head?_cons (l := t))
    exact ⟨hhead, entryMark :: t, rfl, List.forall_mem_cons.mpr ⟨by decide, hpoints⟩⟩
  · rintro ⟨hentry, t, rfl, hpoints⟩
    have hhead := (Text.head?_encodeUtf8 (c := entryMark) (by decide)).mp hentry
    obtain ⟨u, rfl⟩ := List.head?_eq_some_iff.mp hhead
    exact ⟨_, u, rfl, (List.forall_mem_cons.mp hpoints).2, rfl⟩

/-- A line with a payload is marked as an entry. -/
theorem Carries.isEntry {line : Octets} {payload : Text} (h : Carries line payload) :
    IsEntry line :=
  (exists_carries_iff.mp ⟨payload, h⟩).1

/-- A line with a payload is UTF-8. -/
theorem Carries.not_undecodable {line : Octets} {payload : Text} (h : Carries line payload) :
    ¬ Undecodable line :=
  fun hbad => hbad.2 (exists_carries_iff.mp ⟨payload, h⟩).2

/-- A line has one payload only. -/
theorem Carries.unique {line : Octets} {p q : Text} (hp : Carries line p) (hq : Carries line q) :
    p = q :=
  Option.some.inj ((carries_iff.mp hp).symm.trans (carries_iff.mp hq))

/-- An entry that is not UTF-8 holds no record. -/
theorem Undecodable.faulty {line : Octets} (h : Undecodable line) : Faulty line :=
  ⟨h.1, fun _ ⟨_, hcarries, _⟩ => hcarries.not_undecodable h⟩

/-- An entry of too many digits is UTF-8. -/
theorem Overlong.not_undecodable {line : Octets} (h : Overlong line) : ¬ Undecodable line := by
  obtain ⟨payload, hcarries, _⟩ := h
  exact hcarries.not_undecodable

/-- An entry of too many digits holds no record. -/
theorem Overlong.faulty {line : Octets} (h : Overlong line) : Faulty line := by
  obtain ⟨payload, hcarries, hread⟩ := h
  refine ⟨hcarries.isEntry, ?_⟩
  rintro r ⟨other, hother, hreadOther, _⟩
  rw [hcarries.unique hother, hreadOther] at hread
  cases hread

/-! ### The first pass -/

/-- Every other line passes decoding, blank if it is not UTF-8. -/
theorem decodeLine_of_not_undecodable {line : Octets} (h : ¬ Undecodable line) (number : Nat) :
    decodeLine number line = .ok (lineText line) := by
  cases hdecode : Text.decodeUtf8 line with
  | ok t => rw [decodeLine, lineText, hdecode]
  | error m =>
      have hutf8 : ¬ Text.IsUtf8 line := by
        intro hutf8
        obtain ⟨t, ht⟩ := Text.exists_decodeUtf8_iff.mpr hutf8
        rw [hdecode] at ht
        cases ht
      rw [decodeLine, lineText, hdecode]
      exact if_neg fun hentry => h ⟨hentry, hutf8⟩

/-- An entry that is not UTF-8 fails to decode, with its number. -/
theorem decodeLine_of_undecodable {line : Octets} (h : Undecodable line) (number : Nat) :
    ∃ reason, decodeLine number line = .error (.undecodableEntry reason number) := by
  obtain ⟨hentry, hutf8⟩ := h
  unfold decodeLine
  split
  · next t ht => exact absurd (Text.exists_decodeUtf8_iff.mp ⟨t, ht⟩) hutf8
  · exact ⟨_, if_pos hentry⟩

/-- Lines without an undecodable entry are decoded to their texts. -/
theorem decodeLines_eq_ok {lines : List Octets} (h : ∀ line ∈ lines, ¬ Undecodable line)
    (number : Nat) : decodeLines number lines = .ok (lines.map lineText) := by
  induction lines generalizing number with
  | nil => rfl
  | cons line lines ih =>
      obtain ⟨hline, hlines⟩ := List.forall_mem_cons.mp h
      rw [decodeLines, decodeLine_of_not_undecodable hline, ih hlines]
      rfl

/-- Decoding fails at the first undecodable entry, with its number. -/
theorem decodeLines_eq_error {before : List Octets} (h : ∀ line ∈ before, ¬ Undecodable line)
    {line : Octets} (hline : Undecodable line) (after : List Octets) (number : Nat) :
    ∃ reason, decodeLines number (before ++ line :: after) =
      .error (.undecodableEntry reason (number + before.length)) := by
  induction before generalizing number with
  | nil =>
      obtain ⟨reason, hreason⟩ := decodeLine_of_undecodable hline number
      exact ⟨reason, by rw [List.nil_append, decodeLines, hreason]; rfl⟩
  | cons first before ih =>
      obtain ⟨hfirst, hbefore⟩ := List.forall_mem_cons.mp h
      obtain ⟨reason, hreason⟩ := ih hbefore (number + 1)
      have hnumber : number + 1 + before.length = number + (first :: before).length := by
        rw [List.length_cons]
        omega
      refine ⟨reason, ?_⟩
      rw [List.cons_append, decodeLines, decodeLine_of_not_undecodable hfirst, ← hnumber]
      simp only [hreason]
      rfl

/-- The lines of the decoded text are the decoded lines. -/
theorem splitOn_decoded (content : Octets) :
    splitOn lineFeed (joined [lineFeed] ((rawLines content).map lineText)) =
      (rawLines content).map lineText := by
  apply splitOn_joined
  · exact fun hnil => splitOn_ne_nil lineFeedOctet content (List.map_eq_nil_iff.mp hnil)
  · intro t ht
    obtain ⟨line, hline, rfl⟩ := List.mem_map.mp ht
    -- A line feed is one octet, and this octet is part of no other code point; a line that
    -- is not UTF-8 became blank.
    have hoctet : lineFeedOctet ∉ line := notMem_of_mem_splitOn hline
    by_cases hutf8 : Text.IsUtf8 line
    · obtain ⟨t, ht⟩ := Text.exists_decodeUtf8_iff.mpr hutf8
      rw [lineText_eq ht]
      obtain ⟨rfl, _⟩ := Text.decodeUtf8_eq_ok_iff.mp ht
      exact fun hmem => hoctet ((Text.mem_encodeUtf8 (c := lineFeed) (by decide)).mpr hmem)
    · rw [lineText_of_not_isUtf8 hutf8]
      exact List.not_mem_nil

/-! ### The second pass -/

/-- A payload is a record exactly if it is an object with an identity. -/
theorem readPayload_eq_ok_iff {payload : Text} {r : Record} :
    readPayload payload = .ok r ↔
      Json.read payload = .ok (.obj r) ∧ Members.hasKey r Record.idField := by
  unfold readPayload
  constructor
  · intro h
    split at h
    · cases h
    · cases h
    · next members hread =>
        split at h
        · next hkey =>
            obtain rfl := Except.ok.inj h
            exact ⟨hread, hkey⟩
        · cases h
    · cases h
  · rintro ⟨hread, hkey⟩
    simp only [hread, if_pos hkey]

/-- Reading a payload fails without a reason exactly for too many digits. -/
theorem readPayload_eq_error_none_iff {payload : Text} :
    readPayload payload = .error none ↔ Json.read payload = .error .tooManyDigits := by
  unfold readPayload
  constructor
  · intro h
    split at h
    · cases h
    · next hread => exact hread
    · split at h <;> cases h
    · cases h
  · intro hread
    rw [hread]

/-- A line that is no entry is passed over. -/
theorem readLines_cons_not_isEntry {line : Octets} (h : ¬ IsEntry line) (number : Nat)
    (texts : List Text) :
    readLines number (lineText line :: texts) = readLines (number + 1) texts := by
  have hnone : payload? (lineText line) = none :=
    Option.eq_none_iff_forall_ne_some.mpr fun payload hpayload =>
      h (carries_iff.mpr hpayload).isEntry
  rw [readLines, hnone]

/-- A line that holds a record gives this record, before those of the later lines. -/
theorem readLines_cons_holds {line : Octets} {r : Record} (h : Holds line r) (number : Nat)
    (texts : List Text) :
    readLines number (lineText line :: texts) =
      (readLines (number + 1) texts).map (r :: ·) := by
  obtain ⟨payload, hcarries, hread⟩ := h
  have hentry : readEntry number payload = .ok r := by
    rw [readEntry, readPayload_eq_ok_iff.mpr hread]
  rw [readLines, carries_iff.mp hcarries]
  simp only [hentry]

/-- Lines before which nothing is wrong give their records, and reading goes on. -/
theorem readLines_append {lines : List Octets} {records : List Record}
    (h : List.Forall₂ Holds (entries lines) records) (number : Nat)
    (texts : List Text) :
    readLines number (lines.map lineText ++ texts) =
      (readLines (number + lines.length) texts).map (records ++ ·) := by
  induction lines generalizing number records with
  | nil =>
      cases h
      rw [List.map_nil, List.nil_append, List.length_nil, Nat.add_zero]
      cases readLines number texts <;> rfl
  | cons line lines ih =>
      have hnumber : number + (line :: lines).length = number + 1 + lines.length := by
        rw [List.length_cons]
        omega
      rw [List.map_cons, List.cons_append, hnumber]
      by_cases hentry : IsEntry line
      · rw [entries_cons_of_isEntry hentry] at h
        cases h with
        | cons hline hlines =>
            rw [readLines_cons_holds hline, ih hlines]
            cases readLines (number + 1 + lines.length) texts <;> rfl
      · rw [entries_cons_of_not_isEntry hentry] at h
        rw [readLines_cons_not_isEntry hentry, ih h]

/-- Reading stops at an entry that holds no record: without a report if it has too many digits, and
else with its number. -/
theorem readLines_cons_faulty {line : Octets} (h : Faulty line) (hutf8 : ¬ Undecodable line)
    (number : Nat) (texts : List Text) :
    (Overlong line ∧ readLines number (lineText line :: texts) = .error .malformed) ∨
      (¬ Overlong line ∧ ∃ reason, readLines number (lineText line :: texts) =
        .error (.query (.undecodableEntry reason number))) := by
  obtain ⟨hentry, hholds⟩ := h
  obtain ⟨payload, hcarries⟩ := exists_carries_iff.mpr
    ⟨hentry, not_not.mp fun hbad => hutf8 ⟨hentry, hbad⟩⟩
  have hstep : ∀ e, readEntry number payload = .error e →
      readLines number (lineText line :: texts) = .error e := by
    intro e he
    rw [readLines, carries_iff.mp hcarries]
    simp only [he]
  cases hread : readPayload payload with
  | ok r => exact absurd ⟨payload, hcarries, readPayload_eq_ok_iff.mp hread⟩ (hholds r)
  | error fault? =>
      cases fault? with
      | none =>
          refine .inl ⟨⟨payload, hcarries, readPayload_eq_error_none_iff.mp hread⟩, hstep _ ?_⟩
          rw [readEntry, hread]
      | some fault =>
          refine .inr ⟨?_, fault.message, hstep _ (by rw [readEntry, hread])⟩
          rintro ⟨other, hother, hdigits⟩
          rw [hother.unique hcarries, ← readPayload_eq_error_none_iff, hread] at hdigits
          cases hdigits

/-! ### Both passes -/

/-- Each of the lines that hold records holds one of them. -/
theorem exists_holds_of_mem {lines : List Octets} {records : List Record}
    (h : List.Forall₂ Holds lines records) : ∀ line ∈ lines, ∃ r, Holds line r := by
  induction h with
  | nil => exact nofun
  | cons hline _ ih => exact List.forall_mem_cons.mpr ⟨⟨_, hline⟩, ih⟩

/-- The entries give records just if none of the lines is at fault. -/
theorem exists_forall₂_holds_iff {lines : List Octets} :
    (∃ records, List.Forall₂ Holds (entries lines) records) ↔
      ∀ line ∈ lines, ¬ Faulty line := by
  constructor
  · rintro ⟨records, hrecords⟩ line hline ⟨hentry, hholds⟩
    have hmem : line ∈ entries lines :=
      List.mem_filter.mpr ⟨hline, decide_eq_true hentry⟩
    obtain ⟨r, hr⟩ := exists_holds_of_mem hrecords line hmem
    exact hholds r hr
  · intro h
    induction lines with
    | nil => exact ⟨[], .nil⟩
    | cons line lines ih =>
        obtain ⟨hline, hlines⟩ := List.forall_mem_cons.mp h
        obtain ⟨records, hrecords⟩ := ih hlines
        by_cases hentry : IsEntry line
        · obtain ⟨r, hr⟩ : ∃ r, Holds line r :=
            not_forall_not.mp fun hholds => hline ⟨hentry, hholds⟩
          rw [entries_cons_of_isEntry hentry]
          exact ⟨r :: records, .cons hr hrecords⟩
        · rw [entries_cons_of_not_isEntry hentry]
          exact ⟨records, hrecords⟩

/-- If no entry fails to decode, a log is read as the texts of its lines. -/
theorem readContent_of_decodable {content : Octets}
    (h : ∀ line ∈ rawLines content, ¬ Undecodable line) :
    readContent content = readLines 1 ((rawLines content).map lineText) := by
  have hdecode : decode content = .ok (joined [lineFeed] ((rawLines content).map lineText)) := by
    have hlines := decodeLines_eq_ok h 1
    rw [rawLines] at hlines
    rw [decode, hlines]
    rfl
  rw [readContent, hdecode]
  exact congrArg (readLines 1) (splitOn_decoded content)

/-- If every entry holds a record, these are what is read. -/
theorem readContent_eq_ok {content : Octets} {records : List Record}
    (h : List.Forall₂ Holds (entries (rawLines content)) records) :
    readContent content = .ok records := by
  have hdecodable : ∀ line ∈ rawLines content, ¬ Undecodable line := fun line hline hbad =>
    exists_forall₂_holds_iff.mp ⟨records, h⟩ line hline hbad.faulty
  have hread := readLines_append h 1 []
  rw [List.append_nil] at hread
  rw [readContent_of_decodable hdecodable, hread, readLines]
  simp [Except.map]

/-- Where reading stops, and why. -/
theorem readContent_stopsAt {content line : Octets} {n : Nat}
    (h : StopsAt (rawLines content) line n) :
    (Overlong line ∧ readContent content = .error .malformed) ∨
      (¬ Overlong line ∧
        ∃ reason, readContent content = .error (.query (.undecodableEntry reason n))) := by
  rcases h with ⟨before, after, hlines, hbefore, hline, rfl⟩ |
    ⟨hdecodable, before, after, hlines, hbefore, hline, rfl⟩
  · obtain ⟨reason, hreason⟩ := decodeLines_eq_error hbefore hline after 1
    have hdecode : decode content = .error (.undecodableEntry reason (1 + before.length)) := by
      rw [← hlines, rawLines] at hreason
      rw [decode, hreason]
      rfl
    refine .inr ⟨fun hlong => hlong.not_undecodable hline, reason, ?_⟩
    rw [readContent, hdecode, Nat.add_comm]
  · -- The lines before are read without an error, so it is this line that decides.
    obtain ⟨records, hrecords⟩ := exists_forall₂_holds_iff.mpr hbefore
    have hread : readContent content =
        (readLines (1 + before.length) (lineText line :: after.map lineText)).map
          (records ++ ·) := by
      rw [readContent_of_decodable hdecodable, hlines, List.map_append,
        readLines_append hrecords, List.map_cons]
    rw [hread, Nat.add_comm]
    have hutf8 : ¬ Undecodable line :=
      hdecodable line (hlines ▸ List.mem_append_right before List.mem_cons_self)
    rcases readLines_cons_faulty hline hutf8 (before.length + 1) (after.map lineText) with
      ⟨hlong, hstop⟩ | ⟨hlong, reason, hstop⟩
    · exact .inl ⟨hlong, by rw [hstop]; rfl⟩
    · exact .inr ⟨hlong, reason, by rw [hstop]; rfl⟩

/-- **A log is read as the records of its entries, or reading stops at a line.** -/
theorem readContent_cases (content : Octets) :
    (∃ records, List.Forall₂ Holds (entries (rawLines content)) records ∧
        readContent content = .ok records) ∨
      ∃ line n, StopsAt (rawLines content) line n := by
  rcases exists_isFirst_or Undecodable (rawLines content) with ⟨line, n, hfirst⟩ | hdecodable
  · exact .inr ⟨line, n, .inl hfirst⟩
  · rcases exists_isFirst_or Faulty (rawLines content) with ⟨line, n, hfirst⟩ | hfine
    · exact .inr ⟨line, n, .inr ⟨hdecodable, hfirst⟩⟩
    · obtain ⟨records, hrecords⟩ := exists_forall₂_holds_iff.mpr hfine
      exact .inl ⟨records, hrecords, readContent_eq_ok hrecords⟩

end RecordLog.Log
