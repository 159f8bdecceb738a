import RecordLog.Database
import RecordLog.Proofs.Query.Clause

/-!
# Classified queries complete

Reading a query document is the only check that a query goes through.  It is
enough: a document is refused in one of three ways, or it becomes a query that
has an answer over all records.

* `ReadsTo` says of a reading that it ends in a refusal or in a result with some
  property; there is one lemma for each function that reads a part of a document;
* `Query.classify_readsTo` puts these together: the clauses of a classified query
  are all answerable;
* `Query.select_of_answerable` and `QueryOptions.arrange_eq`: such a query
  selects, and what it selects can be sorted and projected;
* `find_fails_only_in_classification` draws the conclusion for whole finds.

Sorting is not free of comparisons that could fail, but `Record.sortByKeys?_eq`
shows that ranks of values never need one.
-/

namespace RecordLog

/-! ### Refusals -/

/-- The three ways in which a query document is refused. -/
def QueryError.IsRefusal (e : QueryError) : Prop :=
  e.kind = .unknownForm ∨ e.kind = .unknownOperator ∨ e.kind = .missingComparison

/-- A reading ends in a refusal, or in a result with the property `P`. -/
def ReadsTo {α : Type} (P : α → Prop) : Except QueryError α → Prop
  | .ok a => P a
  | .error e => e.IsRefusal

namespace ReadsTo

variable {α β : Type} {P : α → Prop} {Q : β → Prop} {x : Except QueryError α}

theorem of_ok (h : ReadsTo P x) {a : α} (hx : x = .ok a) : P a := by
  rw [hx] at h
  exact h

theorem of_error (h : ReadsTo P x) {e : QueryError} (hx : x = .error e) : e.IsRefusal := by
  rw [hx] at h
  exact h

/-- What is made of a result has the property that it is made to have. -/
theorem map (h : ReadsTo P x) {f : α → β} (hf : ∀ a, P a → Q (f a)) : ReadsTo Q (x.map f) := by
  cases x with
  | error e => exact h
  | ok a => exact hf a h

end ReadsTo

/-! ### Reading a document -/

/-- A name is read as an operator, or refused. -/
theorem Operator.ofJson_readsTo (name : Json) : ReadsTo (fun _ => True) (Operator.ofJson name) := by
  have hunknown : QueryError.IsRefusal
      (.make .unknownOperator (Operator.unknownMessage name) [("operator", name)]) :=
    Or.inr (Or.inl rfl)
  unfold Operator.ofJson
  split
  · split
    · trivial
    · exact hunknown
  · exact hunknown

/-- A membership test takes only lists of candidates. -/
theorem Operator.checkOperand_readsTo (op : Operator) (operand : Json) :
    ReadsTo (fun v => op = .oneOf → (Operator.candidates? v).isSome)
      (op.checkOperand operand) := by
  unfold Operator.checkOperand
  split
  · intro _
    rfl
  · exact Or.inr (Or.inr rfl)
  · next hop =>
      intro h
      rw [h] at hop
      exact absurd hop (by decide)

namespace Query

/-- A clause that was read can be evaluated. -/
theorem readClause_readsTo (field : Text) (subQuery : Json) :
    ReadsTo Clause.Answerable (readClause field subQuery) := by
  unfold readClause
  split
  · next name operand _ =>
      have hop := Operator.ofJson_readsTo (.str name)
      split
      · next e he => exact hop.of_error he
      · next op _ =>
          have hoperand := Operator.checkOperand_readsTo op operand
          split
          · next e he => exact hoperand.of_error he
          · next v hv => exact hoperand.of_ok hv
  · exact Or.inr (Or.inr rfl)

/-- Each clause of a field document that was read can be evaluated. -/
theorem readClauses_readsTo (members : Members) :
    ReadsTo (fun cs => ∀ c ∈ cs, c.Answerable) (readClauses members) := by
  induction members with
  | nil => exact fun c hc => absurd hc List.not_mem_nil
  | cons member later ih =>
      obtain ⟨field, subQuery⟩ := member
      have hclause := readClause_readsTo field subQuery
      unfold readClauses
      split
      · next e he => exact hclause.of_error he
      · next c hc =>
          exact ih.map fun cs hcs => List.forall_mem_cons.mpr ⟨hclause.of_ok hc, hcs⟩

/-- Each clause of the documents in a combination that were read can be evaluated. -/
theorem readDocuments_readsTo (how : Combination) (documents : List Json) :
    ReadsTo (fun cs => ∀ c ∈ cs, c.Answerable) (readDocuments how documents) := by
  induction documents with
  | nil => exact fun c hc => absurd hc List.not_mem_nil
  | cons document later ih =>
      unfold readDocuments
      split
      · next h => cases h
      · next members _ heq =>
          have hmembers := readClauses_readsTo members
          obtain ⟨rfl, rfl⟩ := List.cons.inj heq
          split
          · next e he => exact hmembers.of_error he
          · next cs hcs =>
              exact ih.map fun ds hds =>
                List.forall_mem_append.mpr ⟨hmembers.of_ok hcs, hds⟩
      · exact Or.inl rfl

/-- The clauses of a query. -/
def clauses : Query → List Clause
  | .everything => []
  | .words _ => []
  | .combined _ cs => cs
  | .fields cs => cs

/-- **Classification is validation.**  A document is refused, or becomes a query
whose clauses are all answerable. -/
theorem classify_readsTo (document : Json) (knownFields : List Text) :
    ReadsTo (fun q : Query => ∀ c ∈ q.clauses, c.Answerable) (classify document knownFields) := by
  unfold classify
  split
  · exact fun c hc => absurd hc List.not_mem_nil
  · next key value later =>
      split
      · exact fun c hc => absurd hc List.not_mem_nil
      · split
        · next how _ =>
            refine ReadsTo.map (P := fun cs => ∀ c ∈ cs, c.Answerable) ?_ fun cs hcs => hcs
            unfold readBody
            split
            · exact readDocuments_readsTo how _
            · exact Or.inl rfl
        · split
          · exact (readClauses_readsTo _).map fun cs hcs => hcs
          · exact Or.inl rfl
  · exact Or.inl rfl

/-! ### Evaluating a query -/

/-- A query whose clauses can be evaluated has a result. -/
theorem select_of_answerable {q : Query} (h : ∀ c ∈ q.clauses, c.Answerable)
    (textFields : List Text) (rs : List Record) :
    ∃ found, q.select textFields rs = .ok found := by
  have hcombined : ∀ (how : Combination) (cs : List Clause), (∀ c ∈ cs, c.Answerable) →
      ∃ found, how.select rs cs = .ok found := by
    intro how cs hcs
    have hanswerable : Clause.AnswerableOver rs cs := Or.inr hcs
    rw [Combination.select_eq, Clause.outcome, if_pos hanswerable]
    exact ⟨_, rfl⟩
  cases q with
  | everything => exact ⟨rs, rfl⟩
  | words phrase => exact ⟨_, rfl⟩
  | combined how cs => exact hcombined how cs h
  | fields cs => exact hcombined .all cs h

end Query

/-! ### Evaluating by name -/

/-- An operator is found again by its symbol. -/
theorem Operator.holdsNamed_symbol (op : Operator) (v w : Json) :
    Operator.holdsNamed op.symbol v w = op.holds v w := by
  rw [holdsNamed, ofSymbol?_symbol]

/-- A combination is named by its key. -/
theorem Combination.ofKey?_key (how : Combination) : ofKey? how.key = some how := by
  cases how <;> decide +kernel

/-- A combination is found again by its key. -/
theorem Combination.selectNamed_key (how : Combination) (rs : List Record) (cs : List Clause) :
    Combination.selectNamed how.key rs cs = how.select rs cs := by
  rw [selectNamed, ofKey?_key]

/-! ### Whole finds -/

/-- Results can always be sorted and projected. -/
theorem QueryOptions.arrange_eq (options : QueryOptions) (rs : List Record) :
    options.arrange rs = .ok (options.projected (Record.sortByKeys options.sort rs)) := by
  rw [arrange, Record.sortByKeys?_eq]

/-- A loaded database refuses a document in one of the three ways, or answers
it. -/
theorem Database.answer_eq_error {db : Database} {document : Json} {options : QueryOptions}
    {rs : List Record} {failure : Failure}
    (h : db.answer document options rs = .error failure) :
    ∃ e, failure = .query e ∧ e.IsRefusal ∧
      Query.classify (Query.documentOrEverything document) (Record.knownFields rs) =
        .error e := by
  unfold Database.answer at h
  split at h
  · cases h
  · next r rs =>
      have hread := Query.classify_readsTo (Query.documentOrEverything document)
        (Record.knownFields (r :: rs))
      split at h
      · next e he =>
          cases h
          exact ⟨e, rfl, hread.of_error he, he⟩
      · next q hq =>
          obtain ⟨found, hfound⟩ :=
            Query.select_of_answerable (hread.of_ok hq) db.textFields (r :: rs)
          rw [hfound] at h
          simp only [QueryOptions.arrange_eq] at h
          cases h

/-- **Classification is sufficient validation.**  Whatever options could be read: if
a document becomes a query over some records, then the query has an answer, all
comparisons of sorting have one, and the answer is sorted and projected without
failure; every clause is evaluated by one of the known operators, and clauses are
combined in one of the known ways.  So a find in a log that can be loaded fails
only if its document is refused, and with that refusal. -/
theorem find_fails_only_in_classification (db : Database) (document rawOptions : Json)
    {options : QueryOptions} (hoptions : QueryOptions.ofJson rawOptions = .ok options) :
    (∀ (rs : List Record) (q : Query),
      Query.classify document (Record.knownFields rs) = .ok q →
        (∃ found sorted, q.select db.textFields rs = .ok found ∧
          Record.sortByKeys? options.sort found = some sorted ∧
          options.arrange found = .ok (options.projected sorted)) ∧
        (∀ c ∈ q.clauses, ∀ r,
          Operator.holdsNamed c.op.symbol (Members.getOrNull r c.field) c.operand =
            .ok (c.accepts r)) ∧
        (∀ how cs, q = .combined how cs →
          Combination.selectNamed how.key rs cs = q.select db.textFields rs)) ∧
    ∀ (reading : LogReading) (rs : List Record) (failure : Failure),
      db.load reading = .ok rs →
      db.find document rawOptions reading = .error failure →
        ∃ e, failure = .query e ∧ e.IsRefusal ∧
          Query.classify (Query.documentOrEverything document) (Record.knownFields rs) =
            .error e := by
  constructor
  · intro rs q hq
    have hclauses := (Query.classify_readsTo document (Record.knownFields rs)).of_ok hq
    refine ⟨?_, ?_, ?_⟩
    · obtain ⟨found, hfound⟩ := Query.select_of_answerable hclauses db.textFields rs
      exact ⟨found, _, hfound, Record.sortByKeys?_eq options.sort found,
        options.arrange_eq found⟩
    · intro c hc r
      rw [Operator.holdsNamed_symbol]
      exact Clause.holds_of_answerable (hclauses c hc) r
    · intro how cs hhow
      rw [hhow]
      exact Combination.selectNamed_key how rs cs
  · intro reading rs failure hload hfind
    simp only [Database.find, hoptions, Database.findWith, hload] at hfind
    exact Database.answer_eq_error hfind

/-- A log with one record, whose identity is a text. -/
private def oneRecordLog : LogReading :=
  .ok [0x45, 0x7B, 0x22, 0x5F, 0x69, 0x64, 0x22, 0x3A, 0x22, 0x78, 0x22, 0x7D]

/-- A find in a log of one record, with an operator that does not exist. -/
theorem find_refuses_unknown_operator :
    let db : Database := ⟨⟨.here, []⟩, [], true⟩
    let rawOptions : Json := .obj [("sort", .obj [("_id", .str "desc")])]
    let document : Json := .obj [("_id", .obj [("$ne", .str "x")])]
    ∃ options e, QueryOptions.ofJson rawOptions = .ok options ∧
      db.find document rawOptions oneRecordLog = .error (.query e) ∧ e.IsRefusal := by
  intro db rawOptions document
  have hoptions : QueryOptions.ofJson rawOptions = .ok ⟨[⟨"_id", .descending⟩], none⟩ := rfl
  obtain ⟨e, he, hrefusal, _⟩ :=
    (find_fails_only_in_classification db document rawOptions hoptions).2 oneRecordLog
      [[("_id", .str "x")]] _ rfl rfl
  exact ⟨_, e, hoptions, congrArg Except.error he, hrefusal⟩

end RecordLog
