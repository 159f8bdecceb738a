import RecordLog.Database

/-!
# Two forms of one conjunction

A field document is a conjunction of its members.  The same can be written with
`$and`, as a list that holds the document, or as a list with one document for
each member.  All of these are read member by member, from left to right, and what
is read is evaluated in one way:

* `Query.readDocuments_objects` says that a list of documents reads like the one
  document with all their members, up to and including the first offence;
* `Query.classify_combination` and `Query.classify_fields` are the two forms of
  a document that are compared;
* `find_conjunction_agrees` concludes that the answers agree, whether they are
  records or errors.
-/

namespace RecordLog

namespace Query

/-! ### Reading members in parts -/

/-- Members are read one part after the other. -/
theorem readClauses_append (front later : Members) :
    readClauses (front ++ later) =
      match readClauses front with
      | .error e => .error e
      | .ok clauses => (readClauses later).map (clauses ++ ·) := by
  induction front with
  | nil =>
      rw [List.nil_append, readClauses]
      cases readClauses later <;> rfl
  | cons member front ih =>
      obtain ⟨field, subQuery⟩ := member
      rw [List.cons_append, readClauses, readClauses]
      cases readClause field subQuery with
      | error e => rfl
      | ok clause =>
          simp only [ih]
          cases readClauses front with
          | error e => rfl
          | ok clauses => cases readClauses later <;> rfl

/-- Where the members are divided into documents makes no difference. -/
theorem readDocuments_objects (how : Combination) (documents : List Members) :
    readDocuments how (documents.map .obj) = readClauses documents.flatten := by
  induction documents with
  | nil => rfl
  | cons members documents ih =>
      rw [List.map_cons, readDocuments, ih, List.flatten_cons]
      exact (readClauses_append members documents.flatten).symm

/-! ### Classification -/

/-- A document that starts with the key of a combination is classified by that key's body. -/
theorem classify_combination (how : Combination) (body : Json) (later : Members)
    (knownFields : List Text) :
    classify (.obj ((how.key, body) :: later)) knownFields =
      (readBody how body).map (.combined how) := by
  have hwords : how.key ≠ wordsKey := by cases how <;> decide +kernel
  have hhow : Combination.ofKey? how.key = some how := by cases how <;> decide +kernel
  simp only [classify, if_neg hwords, hhow]

/-- A document that starts with a known field is read clause by clause. -/
theorem classify_fields {key : Text} (value : Json) (later : Members) {knownFields : List Text}
    (hwords : key ≠ wordsKey) (hhow : ∀ how : Combination, key ≠ how.key)
    (hknown : key ∈ knownFields) :
    classify (.obj ((key, value) :: later)) knownFields =
      (readClauses ((key, value) :: later)).map .fields := by
  have hnone : Combination.ofKey? key = none := by
    rw [Combination.ofKey?, if_neg (hhow .all), if_neg (hhow .any)]
  simp only [classify, if_neg hwords, hnone, if_pos (Text.isOneOf_iff.mpr hknown)]

end Query

/-- The fields of records are the keys that occur in them. -/
theorem Record.mem_knownFields {rs : List Record} {field : Text} :
    field ∈ knownFields rs ↔ ∃ r ∈ rs, field ∈ Members.keys r := by
  rw [knownFields, List.mem_eraseDups, List.mem_flatMap]

/-! ### Answers -/

/-- Documents whose members make up a field document have its answer when they are
combined with `$and`. -/
theorem Database.answer_conjunction (db : Database) {key : Text} {value : Json}
    {later : Members} {rs : List Record} (hwords : key ≠ Query.wordsKey)
    (hhow : ∀ how : Combination, key ≠ how.key) (hknown : ∃ r ∈ rs, key ∈ Members.keys r)
    {documents : List Members} (hflatten : documents.flatten = (key, value) :: later)
    (options : QueryOptions) :
    db.answer (.obj [("$and", .arr (documents.map .obj))]) options rs =
      db.answer (.obj ((key, value) :: later)) options rs := by
  have hcombined : Query.classify (.obj [("$and", .arr (documents.map .obj))])
      (Record.knownFields rs) =
        (Query.readClauses ((key, value) :: later)).map (.combined .all) := by
    rw [← hflatten, ← Query.readDocuments_objects .all]
    exact Query.classify_combination .all _ [] _
  have hfields := Query.classify_fields value later hwords hhow
    (Record.mem_knownFields.mpr hknown)
  cases rs with
  | nil => rfl
  | cons r rs =>
      simp only [answer, Query.documentOrEverything, Json.truthy, List.isEmpty_cons, Bool.not_false,
        if_true, hcombined, hfields]
      cases Query.readClauses ((key, value) :: later) <;> rfl

/-- **Field documents and `$and` agree.**  A field document, the `$and` of the
document, and the `$and` of its members as documents of their own have the same
answer over every log, with any options: the same records in the same order, or the
same error.  The first key must be a field of some loaded record and none of the
keys that have a meaning of their own; a log that cannot be loaded gives its own
error to all three. -/
theorem find_conjunction_agrees (db : Database) (reading : LogReading) (key : Text)
    (value : Json) (later : Members) (hwords : key ≠ Query.wordsKey)
    (hhow : ∀ how : Combination, key ≠ how.key)
    (hknown : ∀ rs, db.load reading = .ok rs → ∃ r ∈ rs, key ∈ Members.keys r) :
    let members : Members := (key, value) :: later
    let whole : Json := .obj [("$and", .arr [.obj members])]
    let divided : Json := .obj [("$and", .arr (members.map fun member => .obj [member]))]
    (∀ rawOptions, db.find whole rawOptions reading = db.find (.obj members) rawOptions reading ∧
      db.find divided rawOptions reading = db.find (.obj members) rawOptions reading) ∧
    ∀ options, db.findWith whole options reading = db.findWith (.obj members) options reading ∧
      db.findWith divided options reading = db.findWith (.obj members) options reading := by
  intro members whole divided
  have hagrees : ∀ documents : List Members, documents.flatten = members → ∀ options,
      db.findWith (.obj [("$and", .arr (documents.map .obj))]) options reading =
        db.findWith (.obj members) options reading := by
    intro documents hflatten options
    rw [Database.findWith, Database.findWith]
    cases hload : db.load reading with
    | error failure => rfl
    | ok rs => exact db.answer_conjunction hwords hhow (hknown rs hload) hflatten options
  have hwhole : ∀ options,
      db.findWith whole options reading = db.findWith (.obj members) options reading :=
    hagrees [members] (List.flatten_singleton)
  have hdivided : ∀ options,
      db.findWith divided options reading = db.findWith (.obj members) options reading := by
    intro options
    have hflatten : (members.map fun member => [member]).flatten = members := by
      rw [← List.flatMap_def, List.flatMap_singleton']
    have h := hagrees _ hflatten options
    rw [List.map_map] at h
    exact h
  refine ⟨?_, fun options => ⟨hwhole options, hdivided options⟩⟩
  intro rawOptions
  rw [Database.find, Database.find, Database.find]
  cases QueryOptions.ofJson rawOptions with
  | error e => exact ⟨rfl, rfl⟩
  | ok options => exact ⟨hwhole options, hdivided options⟩

/-- A log of two records with one identity, of which one has a field `a` and the other
one a field `b`. -/
private def twoRecordLog : LogReading :=
  .ok [0x45, 0x7B, 0x22, 0x5F, 0x69, 0x64, 0x22, 0x3A, 0x22, 0x78, 0x22, 0x2C,
    0x22, 0x61, 0x22, 0x3A, 0x31, 0x7D, 0x0A,
    0x45, 0x7B, 0x22, 0x5F, 0x69, 0x64, 0x22, 0x3A, 0x22, 0x78, 0x22, 0x2C,
    0x22, 0x62, 0x22, 0x3A, 0x31, 0x7D]

/-- Two records share an identity, and each has one of the fields that a document
names.  Divided into its members, the document still finds the first of them; with an
operator that does not exist in its second member, both forms have the same error. -/
theorem find_conjunction_agrees_shared_identity :
    let db : Database := ⟨⟨.here, ["db.log"]⟩, [], false⟩
    let left : Record := [("_id", .str "x"), ("a", .int 1)]
    let right : Record := [("_id", .str "x"), ("b", .int 1)]
    let one : Json := .obj [("$eq", .int 1)]
    let unknown : Json := .obj [("$ne", .int 1)]
    db.load twoRecordLog = .ok [left, right] ∧
      (∃ r ∈ [left, right], ("a" : Text) ∈ Members.keys r) ∧
      db.find (.obj [("$and", .arr [.obj [("a", one)], .obj [("b", one)]])]) .null
        twoRecordLog = .ok [left] ∧
      db.find (.obj [("$and", .arr [.obj [("a", one)], .obj [("b", unknown)]])]) .null
        twoRecordLog =
          .error (.query (.make .unknownOperator (Operator.unknownMessage (.str "$ne"))
            [("operator", .str "$ne")])) := by
  intro db left right one unknown
  have hload : db.load twoRecordLog = .ok [left, right] := rfl
  have hknown : ∃ r ∈ [left, right], ("a" : Text) ∈ Members.keys r :=
    ⟨left, List.mem_cons_self, List.mem_cons_of_mem _ List.mem_cons_self⟩
  have hagrees := fun second : Json =>
    find_conjunction_agrees db twoRecordLog "a" one [("b", second)]
      (by decide +kernel) (by intro how; cases how <;> decide +kernel)
      (fun rs hrs => Except.ok.inj (hload.symm.trans hrs) ▸ hknown)
  exact ⟨hload, hknown, ((hagrees one).1 .null).2, ((hagrees unknown).1 .null).2⟩

end RecordLog
