import RecordLog.Proofs.Database.Found
import RecordLog.Proofs.Query.Grammar
import RecordLog.Proofs.Record.Distinct
import RecordLog.Proofs.Record.Identity

/-!
# Identities as keys

Where the identities of records are distinct, they are a key of the collection.

* No query selects two records of one identity: searches and conjunctions filter the
  records, and a union keeps one record for each identity (`Query.nodup_select`).  Sorting
  keeps that (`Database.nodup_answer`).
* `Database.find_comparison` says what a document of one comparison finds.  Asking for a
  leaf as identity finds one record at most, since all that is equal to a leaf has its
  identity (`Record.length_identified_le_one`).
* `strict_identities_key` starts from the load of a log, where strictness checks that the
  identities are distinct, and draws these conclusions.
-/

namespace RecordLog

/-! ### What queries select -/

section Selection

variable {rs found : List Record} {cs : List Clause}

/-- A clause that succeeds answers with the records it selected. -/
theorem Clause.eq_of_outcome_eq_ok {selected : List Record}
    (h : outcome rs cs selected = .ok found) : found = selected := by
  unfold outcome at h
  split at h
  · exact (Except.ok.inj h).symm
  · cases h

/-- Filtering keeps identities distinct. -/
theorem Record.nodup_filter (hrs : (identities rs).Nodup) (p : Record → Bool) :
    (identities (rs.filter p)).Nodup :=
  hrs.sublist (List.filter_sublist.map identity)

/-- Selecting from records with distinct identities keeps them distinct, in either combination. -/
theorem Combination.nodup_select (how : Combination) (hrs : (Record.identities rs).Nodup)
    (h : how.select rs cs = .ok found) : (Record.identities found).Nodup := by
  cases how with
  | all =>
      cases cs with
      | nil =>
          obtain rfl := Except.ok.inj h
          exact List.nodup_nil
      | cons c cs =>
          rw [select_all_eq] at h
          rw [Clause.eq_of_outcome_eq_ok h]
          exact Record.nodup_filter hrs _
  | any =>
      rw [select_any_eq] at h
      rw [Clause.eq_of_outcome_eq_ok h]
      exact Hit.nodup_identities_firsts rs cs

/-- No query selects two records of one identity, if the records have none. -/
theorem Query.nodup_select {q : Query} {textFields : List Text}
    (hrs : (Record.identities rs).Nodup) (h : q.select textFields rs = .ok found) :
    (Record.identities found).Nodup := by
  cases q with
  | everything =>
      obtain rfl := Except.ok.inj h
      exact hrs
  | words phrase =>
      obtain rfl := Except.ok.inj h
      exact Record.nodup_filter hrs _
  | combined how clauses => exact how.nodup_select hrs h
  | fields clauses => exact Combination.all.nodup_select hrs h

end Selection

/-! ### What databases answer -/

namespace Database

variable {db : Database} {reading : LogReading} {records found : List Record}

/-- Without options, a find is the answer over the records that are loaded. -/
theorem find_asIs (hload : db.load reading = .ok records) (document : Json) :
    db.find document .null reading = db.answer document .asIs records := by
  simp only [find, QueryOptions.ofJson, findWith, hload]

/-- Without a projection, an answer over distinct identities has distinct identities. -/
theorem nodup_answer {document : Json} {options : QueryOptions}
    (hprojection : options.projection = none) (hrecords : (Record.identities records).Nodup)
    (h : db.answer document options records = .ok found) : (Record.identities found).Nodup := by
  unfold answer at h
  split at h
  · rw [← Except.ok.inj h]
    exact List.nodup_nil
  · split at h
    · cases h
    · split at h
      · cases h
      · next selected hselect =>
          rw [QueryOptions.arrange_eq, QueryOptions.projected, hprojection] at h
          rw [← Except.ok.inj h]
          have hperm := (Record.sortByKeys_perm options.sort selected).map Record.identity
          exact hperm.nodup_iff.mpr (Query.nodup_select hrecords hselect)

/-- Without a projection, a find over a log of distinct identities answers with distinct
identities. -/
theorem nodup_find {document rawOptions : Json} {options : QueryOptions}
    (hload : db.load reading = .ok records) (hrecords : (Record.identities records).Nodup)
    (hoptions : QueryOptions.ofJson rawOptions = .ok options)
    (hprojection : options.projection = none)
    (h : db.find document rawOptions reading = .ok found) : (Record.identities found).Nodup := by
  simp only [find, hoptions, findWith, hload] at h
  exact nodup_answer hprojection hrecords h

end Database

/-! ### Documents of one comparison -/

/-- An operator with an operand it takes is one clause on its field. -/
theorem Query.readClauses_comparison {op : Operator} {operand : Json} (h : op.Takes operand)
    (field : Text) :
    readClauses [(field, .obj [(op.symbol, operand)])] = .ok [⟨field, op, operand⟩] := by
  simp only [readClauses, readClause, Operator.ofJson, Operator.ofSymbol?_symbol,
    Operator.checkOperand_of_takes h]
  rfl

/-- A clause whose operator takes its operand can be evaluated. -/
theorem Clause.answerable_of_takes {op : Operator} {operand : Json} (h : op.Takes operand)
    (field : Text) : Answerable ⟨field, op, operand⟩ := by
  intro hop
  obtain ⟨items, rfl⟩ := h hop
  rfl

/-- A document that compares one known field finds the records for which the comparison
holds. -/
theorem Database.find_comparison {db : Database} {reading : LogReading} {records : List Record}
    (hload : db.load reading = .ok records) {field : Text} (hwords : field ≠ Query.wordsKey)
    (hhow : ∀ how : Combination, field ≠ how.key)
    (hknown : ∃ r ∈ records, field ∈ Members.keys r)
    (op : Operator) {operand : Json} (htakes : op.Takes operand) :
    db.find (.obj [(field, .obj [(op.symbol, operand)])]) .null reading =
      .ok (records.filter (Clause.accepts ⟨field, op, operand⟩)) := by
  have hne : records ≠ [] := by
    rintro rfl
    obtain ⟨_, hr, _⟩ := hknown
    exact List.not_mem_nil hr
  have hclassify : Query.classify (.obj [(field, .obj [(op.symbol, operand)])])
      (Record.knownFields records) = .ok (.fields [⟨field, op, operand⟩]) := by
    rw [Query.classify_fields _ _ hwords hhow (Record.mem_knownFields.mpr hknown),
      Query.readClauses_comparison htakes]
    rfl
  have hanswerable : Clause.AnswerableOver records [⟨field, op, operand⟩] :=
    .inr (List.forall_mem_singleton.mpr (Clause.answerable_of_takes htakes field))
  have hselect : (Query.fields [⟨field, op, operand⟩]).select db.textFields records =
      .ok (records.filter (Clause.accepts ⟨field, op, operand⟩)) := by
    rw [Query.select, select_all_eq, Clause.outcome, if_pos hanswerable, Record.conjunction]
    simp only [List.not_mem_nil, false_implies, implies_true, and_true, Bool.decide_eq_true]
  rw [find_asIs hload]
  exact answer_asIs hne hclassify hselect

/-! ### Asking for an identity -/

namespace Record

variable {records : List Record} {v : Json}

/-- What is equal to a leaf has its identity. -/
theorem identity_eq_of_strictEq {r : Record} (hv : v.isLeaf) (h : (id r).strictEq v = true) :
    identity r = Identity.ofJson v := by
  have hsame := (Json.strictEq_iff_same.mp h).2.2
  have hleaf : (id r).isLeaf :=
    ((Json.same_iff_of_isLeaf (.inr hv)).mp hsame).isLeaf_eq.trans hv
  exact (Identity.ofJson_eq_iff_of_isLeaf hleaf hv).mpr (.inl h)

/-- Among records of distinct identities at most one is strictly equal to a leaf. -/
theorem length_identified_le_one (hrecords : (identities records).Nodup) (hv : v.isLeaf) :
    (records.filter fun r => (id r).strictEq v).length ≤ 1 := by
  have hsubset : identities (records.filter fun r => (id r).strictEq v) ⊆
      [Identity.ofJson v] := by
    intro k hk
    obtain ⟨r, hr, rfl⟩ := List.mem_map.mp hk
    exact List.mem_singleton.mpr (identity_eq_of_strictEq hv (List.mem_filter.mp hr).2)
  have hlength := (List.subperm_of_subset (nodup_filter hrecords _) hsubset).length_le
  rwa [identities, List.length_map] at hlength

end Record

/-- The records that are loaded have the identifying field. -/
theorem Database.idField_mem_keys {db : Database} {reading : LogReading} {records : List Record}
    (hload : db.load reading = .ok records) :
    ∀ r ∈ records, Record.idField ∈ Members.keys r := by
  unfold load at hload
  split at hload
  · cases hload
  · intro r hr
    obtain ⟨_, _, _, _, hkey⟩ := Log.exists_holds_of_load hload r hr
    exact Members.mem_keys_iff.mpr (Option.isSome_iff_exists.mp hkey)

/-- Asking for an identity that is a leaf succeeds, and finds the one record that bears it or
none. -/
theorem Database.exists_find_identified {db : Database} {reading : LogReading}
    {records : List Record} (hload : db.load reading = .ok records)
    (hrecords : (Record.identities records).Nodup) {v : Json} (hv : v.isLeaf) :
    ∃ found, db.find (.obj [("_id", .obj [("$eq", v)])]) .null reading = .ok found ∧
      found = (records.filter fun r => r.id.strictEq v) ∧ found.length ≤ 1 := by
  refine ⟨_, ?_, rfl, Record.length_identified_le_one hrecords hv⟩
  cases records with
  | nil => rw [find_asIs hload]; rfl
  | cons r later =>
      have hwords : Record.idField ≠ Query.wordsKey := by decide +kernel
      have hhow : ∀ how : Combination, Record.idField ≠ how.key := by
        intro how
        cases how <;> decide +kernel
      have hknown : ∃ s ∈ r :: later, Record.idField ∈ Members.keys s :=
        ⟨r, List.mem_cons_self, idField_mem_keys hload r List.mem_cons_self⟩
      exact find_comparison hload hwords hhow hknown .equal nofun

/-! ### Strict loads -/

/-- **Strictness makes the identity a key.**  Let a log be given that can be loaded.  A strict
load has the same records if their identities are distinct.  Otherwise it is refused, with
the least position of a record whose identity occurred before.  And where a strict load has
records, no query selects two of one identity from them.  Every database that is asked over
this log finds one record at most for a leaf as identity, and never two records of one
identity, whatever the query and the sort keys. -/
theorem strict_identities_key {path : Path} {content : Octets} {records : List Record}
    (hload : Log.load path false content = .ok records) :
    (Log.load path true content = .ok records ↔ (Record.identities records).Nodup) ∧
    (¬ (Record.identities records).Nodup → ∃ r position, records[position]? = some r ∧
      IsLeast {p | Record.RepeatsAt records p} position ∧
      Log.load path true content = .error (.query (.duplicateIdentity r.id position))) ∧
    (Log.load path true content = .ok records →
      (∀ (q : Query) textFields found, q.select textFields records = .ok found →
        (Record.identities found).Nodup) ∧
      ∀ db : Database, db.load (.ok content) = .ok records →
        (∀ v : Json, v.isLeaf → ∃ found,
          db.find (.obj [("_id", .obj [("$eq", v)])]) .null (.ok content) = .ok found ∧
          found = (records.filter fun r => r.id.strictEq v) ∧ found.length ≤ 1) ∧
        ∀ document rawOptions options found, QueryOptions.ofJson rawOptions = .ok options →
          options.projection = none →
          db.find document rawOptions (.ok content) = .ok found →
          (Record.identities found).Nodup) := by
  have hstrict := Log.load_strict_eq hload
  have hdistinct : Log.load path true content = .ok records ↔
      (Record.identities records).Nodup := by
    rw [hstrict, ← Record.checkDistinct_eq_ok_iff]
    cases Record.checkDistinct records with
    | ok _ => exact iff_of_true rfl rfl
    | error e => exact iff_of_false nofun nofun
  refine ⟨hdistinct, ?_, ?_⟩
  · intro hrepeated
    obtain ⟨r, position, hr, hleast, herror⟩ := Record.exists_checkDistinct_eq_error hrepeated
    refine ⟨r, position, hr, hleast, ?_⟩
    rw [hstrict, herror]
  · intro hok
    have hrecords := hdistinct.mp hok
    refine ⟨fun q textFields found hselect => Query.nodup_select hrecords hselect, ?_⟩
    intro db hdb
    refine ⟨fun v hv => Database.exists_find_identified hdb hrecords hv, ?_⟩
    intro document rawOptions options found hoptions hprojection hfind
    exact Database.nodup_find hdb hrecords hoptions hprojection hfind

/-- The identities 1 and true are distinct, and asking for 1.0 finds the record of the first.  A
third record whose identity is 1.0 repeats it. -/
theorem strict_identities_key_numbers :
    let path : Path := ⟨.here, ["db.log"]⟩
    let db : Database := ⟨path, [], true⟩
    let two : Octets := [0x45, 0x7B, 0x22, 0x5F, 0x69, 0x64, 0x22, 0x3A, 0x31, 0x7D, 0x0A,
      0x45, 0x7B, 0x22, 0x5F, 0x69, 0x64, 0x22, 0x3A, 0x74, 0x72, 0x75, 0x65, 0x7D]
    let three : Octets := two ++ [0x0A,
      0x45, 0x7B, 0x22, 0x5F, 0x69, 0x64, 0x22, 0x3A, 0x31, 0x2E, 0x30, 0x7D]
    let number : Record := [("_id", .int 1)]
    let flag : Record := [("_id", .bool true)]
    let again : Record := [("_id", .float Double.one)]
    let either : Json := .obj [("$or", .arr [.obj [("_id", .obj [("$eq", .bool true)])],
      .obj [("_id", .obj [("$in", .arr [.int 1, .bool true])])]])]
    Log.load path false two = .ok [number, flag] ∧ (Record.identities [number, flag]).Nodup ∧
      Log.load path true two = .ok [number, flag] ∧
      db.find (.obj [("_id", .obj [("$eq", .float Double.one)])]) .null (.ok two) =
        .ok [number] ∧
      db.find either .null (.ok two) = .ok [flag, number] ∧
      (Record.identities [flag, number]).Nodup ∧
      Log.load path false three = .ok [number, flag, again] ∧
      ¬ (Record.identities [number, flag, again]).Nodup ∧
      ∃ r position, [number, flag, again][position]? = some r ∧
        IsLeast {p | Record.RepeatsAt [number, flag, again] p} position ∧
        Log.load path true three = .error (.query (.duplicateIdentity r.id position)) := by
  intro path db two three number flag again either
  have hone : Double.one = Decimal.toDouble false ⟨10, -1⟩ := by decide +kernel
  have htwo : Log.load path false two = .ok [number, flag] := rfl
  have hthree : Log.load path false three = .ok [number, flag, again] := by
    simp only [again, hone]
    rfl
  have hdistinct : (Record.identities [number, flag]).Nodup := by decide +kernel
  have hrepeated : ¬ (Record.identities [number, flag, again]).Nodup := by decide +kernel
  obtain ⟨hiff, -, hkey⟩ := strict_identities_key htwo
  have hstrict := hiff.mpr hdistinct
  obtain ⟨-, hfinds⟩ := hkey hstrict
  obtain ⟨hidentified, hqueries⟩ := hfinds db hstrict
  obtain ⟨found, hfind, hfound, -⟩ := hidentified (.float Double.one) rfl
  have hnumber : ([number, flag].filter fun r => r.id.strictEq (.float Double.one)) =
      [number] := by
    rw [List.filter_cons_of_pos (by decide +kernel), List.filter_cons_of_neg (by decide +kernel)]
    rfl
  have heither : db.find either .null (.ok two) = .ok [flag, number] := rfl
  exact ⟨htwo, hdistinct, hstrict, hfind.trans (congrArg Except.ok (hfound.trans hnumber)),
    heither, hqueries either .null .asIs _ rfl rfl heither, hthree, hrepeated,
    (strict_identities_key hthree).2.1 hrepeated⟩

end RecordLog
