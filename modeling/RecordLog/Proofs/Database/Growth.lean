import RecordLog.Proofs.Query.Agreement
import RecordLog.Proofs.Query.Completion
import RecordLog.Proofs.Query.Conjunction
import RecordLog.Proofs.Query.Disjunction
import RecordLog.Proofs.Record.Appending

/-!
# Databases that grow

A log grows at its end.  A query that was accepted before is accepted afterwards, and as
the same query.  Which records it finds may change even among the old ones, since several
records may share one identity: an added record may take the place of an older one in a
union, or help it through an intersection.  Identities are another matter.

* `Query.Finds` says which identities a query finds.  It asks for nothing but records
  that are there, each with the identity in question (`Record.Witnessed`);
* hence `Query.Finds.append` and `Query.finds_append_iff`: nothing is lost, and records of
  other identities do not matter;
* `Query.classify_mono`: more fields can only make more documents queries;
* `find_appended` puts this together with what is known of the logs themselves.
-/

namespace RecordLog

/-! ### Records with an identity -/

namespace Record

/-- Some record with the identity satisfies the condition. -/
def Witnessed (rs : List Record) (k : Identity) (p : Record → Prop) : Prop :=
  ∃ r ∈ rs, identity r = k ∧ p r

variable {rs added : List Record} {k : Identity} {p : Record → Prop}

/-- What is satisfied in the name of an identity stays so among more records. -/
theorem Witnessed.append (h : Witnessed rs k p) (added : List Record) :
    Witnessed (rs ++ added) k p := by
  obtain ⟨r, hr, hrest⟩ := h
  exact ⟨r, List.mem_append_left added hr, hrest⟩

/-- Records of other identities do not matter. -/
theorem witnessed_append_iff (hk : k ∉ identities added) :
    Witnessed (rs ++ added) k p ↔ Witnessed rs k p := by
  refine ⟨?_, fun h => h.append added⟩
  rintro ⟨r, hr, hid, hp⟩
  rcases List.mem_append.mp hr with hr | hr
  · exact ⟨r, hr, hid, hp⟩
  · exact absurd (List.mem_map.mpr ⟨r, hr, hid⟩) hk

/-- A filter leaves an identity if some record that has it passes. -/
theorem mem_identities_filter {f : Record → Bool} :
    k ∈ identities (rs.filter f) ↔ Witnessed rs k (f ·) := by
  simp only [identities, List.mem_map, List.mem_filter, Witnessed]
  constructor
  · rintro ⟨r, ⟨hr, hf⟩, hid⟩
    exact ⟨r, hr, hid, hf⟩
  · rintro ⟨r, hr, hid, hf⟩
    exact ⟨r, ⟨hr, hf⟩, hid⟩

/-- An identity survives a conjunction if each clause is satisfied in its name. -/
theorem mem_identities_conjunction (c : Clause) (cs : List Clause) :
    k ∈ identities (conjunction rs (c :: cs)) ↔ ∀ d ∈ c :: cs, Witnessed rs k (d.accepts ·) := by
  rw [conjunction, mem_identities_filter, List.forall_mem_cons]
  simp only [decide_eq_true_eq]
  constructor
  · rintro ⟨r, hr, rfl, hc, hcs⟩
    exact ⟨⟨r, hr, rfl, hc⟩, hcs⟩
  · rintro ⟨⟨r, hr, rfl, hc⟩, hcs⟩
    exact ⟨r, hr, rfl, hc, hcs⟩

end Record

namespace Query

/-! ### The identities that a query finds -/

/-- All clauses are satisfied in the name of an identity, and there is one. -/
def FindsAll (rs : List Record) (k : Identity) (cs : List Clause) : Prop :=
  cs ≠ [] ∧ ∀ c ∈ cs, Record.Witnessed rs k (c.accepts ·)

/-- A query finds records of an identity. -/
def Finds (textFields : List Text) (rs : List Record) (k : Identity) : Query → Prop
  | .everything => Record.Witnessed rs k fun _ => True
  | .words phrase => Record.Witnessed rs k (Record.hasWord textFields phrase.words ·)
  | .combined .any cs => ∃ c ∈ cs, Record.Witnessed rs k (c.accepts ·)
  | .combined .all cs => FindsAll rs k cs
  | .fields cs => FindsAll rs k cs

/-- A conjunction of clauses that can be evaluated finds an identity if each clause is satisfied in
its name. -/
theorem exists_select_all {rs : List Record} {cs : List Clause} (h : ∀ c ∈ cs, c.Answerable) :
    ∃ found, Combination.all.select rs cs = .ok found ∧
      ∀ k, k ∈ Record.identities found ↔ FindsAll rs k cs := by
  cases cs with
  | nil => exact ⟨[], rfl, fun k => ⟨nofun, fun hall => absurd rfl hall.1⟩⟩
  | cons c cs =>
      have hanswerable : Clause.AnswerableOver rs (c :: cs) := Or.inr h
      refine ⟨Record.conjunction rs (c :: cs), ?_, ?_⟩
      · rw [select_all_eq, Clause.outcome, if_pos hanswerable]
      · intro k
        rw [Record.mem_identities_conjunction, FindsAll]
        exact (and_iff_right (List.cons_ne_nil c cs)).symm

/-- A disjunction of clauses that can be evaluated finds an identity if some clause is satisfied in
its name. -/
theorem exists_select_any {rs : List Record} {cs : List Clause} (h : ∀ c ∈ cs, c.Answerable) :
    ∃ found, Combination.any.select rs cs = .ok found ∧
      ∀ k, k ∈ Record.identities found ↔ ∃ c ∈ cs, Record.Witnessed rs k (c.accepts ·) := by
  have hanswerable : Clause.AnswerableOver rs cs := Or.inr h
  refine ⟨(Hit.firsts rs cs).map Hit.record, ?_, ?_⟩
  · rw [select_any_eq, Clause.outcome, if_pos hanswerable]
  · intro k
    rw [Hit.mem_identities_firsts]
    constructor
    · rintro ⟨r, hr, hid, c, hc, ha⟩
      exact ⟨c, hc, r, hr, hid, ha⟩
    · rintro ⟨c, hc, r, hr, hid, ha⟩
      exact ⟨r, hr, hid, c, hc, ha⟩

/-- A query whose clauses can be evaluated finds just the identities that `Finds`
says. -/
theorem exists_select {q : Query} (h : ∀ c ∈ q.clauses, c.Answerable) (textFields : List Text)
    (rs : List Record) :
    ∃ found, q.select textFields rs = .ok found ∧
      ∀ k, k ∈ Record.identities found ↔ q.Finds textFields rs k := by
  cases q with
  | everything =>
      refine ⟨rs, rfl, ?_⟩
      intro k
      simp only [Record.identities, List.mem_map, Finds, Record.Witnessed, and_true]
  | words phrase => exact ⟨_, rfl, fun k => Record.mem_identities_filter⟩
  | combined how cs =>
      cases how with
      | all => exact exists_select_all h
      | any => exact exists_select_any h
  | fields cs => exact exists_select_all h

variable {textFields : List Text} {rs added : List Record} {k : Identity}

/-- What a conjunction finds it finds among more records. -/
theorem FindsAll.append {cs : List Clause} (h : FindsAll rs k cs) : FindsAll (rs ++ added) k cs :=
  ⟨h.1, fun c hc => (h.2 c hc).append added⟩

/-- What was found is found among more records. -/
theorem Finds.append {q : Query} (h : q.Finds textFields rs k) :
    q.Finds textFields (rs ++ added) k := by
  cases q with
  | everything => exact Record.Witnessed.append h added
  | words phrase => exact Record.Witnessed.append h added
  | combined how cs =>
      cases how with
      | all => exact FindsAll.append h
      | any =>
          obtain ⟨c, hc, hwitness⟩ := h
          exact ⟨c, hc, hwitness.append added⟩
  | fields cs => exact FindsAll.append h

/-- Records of other identities change nothing for an identity. -/
theorem finds_append_iff {q : Query} (hk : k ∉ Record.identities added) :
    q.Finds textFields (rs ++ added) k ↔ q.Finds textFields rs k := by
  have hsame : ∀ p : Record → Prop,
      Record.Witnessed (rs ++ added) k p ↔ Record.Witnessed rs k p :=
    fun p => Record.witnessed_append_iff hk
  match q with
  | .everything => exact hsame _
  | .words phrase => exact hsame _
  | .combined .any cs => simp only [Finds, hsame]
  | .combined .all cs => simp only [Finds, FindsAll, hsame]
  | .fields cs => simp only [Finds, FindsAll, hsame]

/-! ### Accepted documents -/

/-- A document that is a query stays the same query when more fields are known. -/
theorem classify_mono {document : Json} {fields more : List Text} {q : Query}
    (h : classify document fields = .ok q) (hmore : ∀ field ∈ fields, field ∈ more) :
    classify document more = .ok q := by
  unfold classify at h ⊢
  split
  · exact h
  · next key value later =>
      simp only at h
      split at h
      · next hwords => rwa [if_pos hwords]
      · next hwords =>
          rw [if_neg hwords]
          split at h
          · exact h
          · split at h
            · next hknown =>
                rwa [if_pos (Text.isOneOf_iff.mpr (hmore key (Text.isOneOf_iff.mp hknown)))]
            · cases h
  · next hobject hmembers =>
      split at h
      · exact absurd rfl hobject
      · next key value later => exact absurd rfl (hmembers key value later)
      · cases h

/-- A document that is a query over some records stays the same query when records are
added.  Every identity that it found is found again, and an identity that was not
added is found just if it was before. -/
def Persists (textFields : List Text) (document : Json) (rs added : List Record) : Prop :=
  ∀ q, classify document (Record.knownFields rs) = .ok q →
    classify document (Record.knownFields (rs ++ added)) = .ok q ∧
    ∃ found found', q.select textFields rs = .ok found ∧
      q.select textFields (rs ++ added) = .ok found' ∧
      (∀ k ∈ Record.identities found, k ∈ Record.identities found') ∧
      ∀ k, k ∉ Record.identities added →
        (k ∈ Record.identities found' ↔ k ∈ Record.identities found)

/-- Every accepted query persists when records are added. -/
theorem persists (textFields : List Text) (document : Json) (rs added : List Record) :
    Persists textFields document rs added := by
  intro q hq
  have hanswerable := (classify_readsTo document (Record.knownFields rs)).of_ok hq
  obtain ⟨found, hselect, hfound⟩ := exists_select hanswerable textFields rs
  obtain ⟨found', hselect', hfound'⟩ := exists_select hanswerable textFields (rs ++ added)
  refine ⟨classify_mono hq ?_, found, found', hselect, hselect', ?_, ?_⟩
  · intro field hfield
    obtain ⟨r, hr, hkey⟩ := Record.mem_knownFields.mp hfield
    exact Record.mem_knownFields.mpr ⟨r, List.mem_append_left added hr, hkey⟩
  · intro k hk
    exact (hfound' k).mpr ((hfound k).mp hk).append
  · intro k hk
    rw [hfound', hfound, finds_append_iff hk]

end Query

/-! ### Whole finds -/

/-- Without sort keys and projection, the answer to a query is what it selects. -/
theorem Database.answer_asIs {db : Database} {document : Json} {rs found : List Record} {q : Query}
    (hrs : rs ≠ []) (hq : Query.classify (Query.documentOrEverything document)
      (Record.knownFields rs) = .ok q)
    (hselect : q.select db.textFields rs = .ok found) :
    db.answer document .asIs rs = .ok found := by
  cases rs with
  | nil => exact absurd rfl hrs
  | cons r rs =>
      simp only [answer, hq, hselect]
      rfl

/-- A find over a log with records succeeds only if its document is a query. -/
theorem Database.exists_classify_of_answer {db : Database} {document : Json}
    {options : QueryOptions} {rs found : List Record} (hrs : rs ≠ [])
    (h : db.answer document options rs = .ok found) :
    ∃ q, Query.classify (Query.documentOrEverything document) (Record.knownFields rs) =
      .ok q := by
  cases rs with
  | nil => exact absurd rfl hrs
  | cons r rs =>
      cases hq : Query.classify (Query.documentOrEverything document)
          (Record.knownFields (r :: rs)) with
      | ok q => exact ⟨q, rfl⟩
      | error e => simp only [answer, hq, reduceCtorEq] at h

/-- **Appending to a log is monotone and local.**  Take a log, as text or as octets, and a
longer one, in which more follows after a line feed.  If both can be loaded, without the
check for identities, then what follows can be loaded too, and its records come after
those of the first log.  Every document that is a query over the first log is the same
query over the longer one; each identity that it found is still found, and one that no
added record has is found just if it was before.  Where the first log has a record, that
is what two finds answer. -/
theorem find_appended (db : Database) (hpermissive : db.strictIds = false) (document : Json) :
    (∀ (t u : Text) (rs rs' : List Record), Log.parse t = .ok rs →
      Log.parse (t ++ Log.lineFeed :: u) = .ok rs' →
      ∃ added, Log.parse u = .ok added ∧ rs' = rs ++ added ∧
        Query.Persists db.textFields (Query.documentOrEverything document) rs added) ∧
    ∀ (c d : Octets) (rs rs' : List Record), db.load (.ok c) = .ok rs →
      db.load (.ok (c ++ Log.lineFeedOctet :: d)) = .ok rs' →
      ∃ added, db.load (.ok d) = .ok added ∧ rs' = rs ++ added ∧
        Query.Persists db.textFields (Query.documentOrEverything document) rs added ∧
        ∀ found, rs ≠ [] → db.find document .null (.ok c) = .ok found →
          ∃ found', db.find document .null (.ok (c ++ Log.lineFeedOctet :: d)) = .ok found' ∧
            (∀ k ∈ Record.identities found, k ∈ Record.identities found') ∧
            ∀ k, k ∉ Record.identities added →
              (k ∈ Record.identities found' ↔ k ∈ Record.identities found) := by
  have hload : ∀ content rs,
      db.load (.ok content) = .ok rs ↔ Log.readContent content = .ok rs := by
    intro content rs
    rw [Database.load, hpermissive]
    exact Log.load_eq_ok_iff
  constructor
  · intro t u rs rs' ht hwhole
    obtain ⟨added, hu, rfl⟩ := (Log.parse_append ht).mp hwhole
    exact ⟨added, hu, rfl, Query.persists _ _ rs added⟩
  · intro c d rs rs' hc hwhole
    obtain ⟨added, hd, rfl⟩ :=
      (Log.readContent_append ((hload c rs).mp hc)).mp ((hload _ rs').mp hwhole)
    refine ⟨added, (hload d added).mpr hd, rfl, Query.persists _ _ rs added, ?_⟩
    intro found hrs hfind
    have hanswer : ∀ content records, db.load (.ok content) = .ok records →
        db.find document .null (.ok content) = db.answer document .asIs records := by
      intro content records hrecords
      simp only [Database.find, QueryOptions.ofJson, Database.findWith, hrecords]
    rw [hanswer c rs hc] at hfind
    rw [hanswer _ _ hwhole]
    obtain ⟨q, hq⟩ := Database.exists_classify_of_answer hrs hfind
    obtain ⟨hq', found₁, found', hselect, hselect', hkept, hlocal⟩ :=
      Query.persists db.textFields _ rs added q hq
    obtain rfl : found₁ = found :=
      Except.ok.inj ((Database.answer_asIs hrs hq hselect).symm.trans hfind)
    have hrs' : rs ++ added ≠ [] := List.append_ne_nil_of_left_ne_nil hrs added
    exact ⟨found', Database.answer_asIs hrs' hq' hselect', hkept, hlocal⟩

/-- Two records with one field each, of which the other clause of the union finds an added
record with the identity of the first.  It takes the place of the first; both identities
are still found. -/
theorem find_appended_displaced :
    let db : Database := ⟨⟨.here, ["db.log"]⟩, [], false⟩
    let c : Octets :=
      [0x45, 0x7B, 0x22, 0x5F, 0x69, 0x64, 0x22, 0x3A, 0x22, 0x78, 0x22, 0x2C, 0x22, 0x61,
        0x22, 0x3A, 0x31, 0x7D, 0x0A, 0x45, 0x7B, 0x22, 0x5F, 0x69, 0x64, 0x22, 0x3A, 0x22,
        0x79, 0x22, 0x2C, 0x22, 0x61, 0x22, 0x3A, 0x31, 0x7D]
    let d : Octets :=
      [0x45, 0x7B, 0x22, 0x5F, 0x69, 0x64, 0x22, 0x3A, 0x22, 0x78, 0x22, 0x2C, 0x22, 0x62,
        0x22, 0x3A, 0x31, 0x7D]
    let one : Json := .obj [("$eq", .int 1)]
    let document : Json := .obj [("$or", .arr [.obj [("b", one)], .obj [("a", one)]])]
    let first : Record := [("_id", .str "x"), ("a", .int 1)]
    let second : Record := [("_id", .str "y"), ("a", .int 1)]
    let third : Record := [("_id", .str "x"), ("b", .int 1)]
    db.load (.ok c) = .ok [first, second] ∧
      db.find document .null (.ok c) = .ok [first, second] ∧
      ∃ added found', db.load (.ok d) = .ok added ∧ added = [third] ∧
        db.find document .null (.ok (c ++ Log.lineFeedOctet :: d)) = .ok found' ∧
        found' = [third, second] ∧ ∀ k ∈ Record.identities [first, second],
          k ∈ Record.identities found' := by
  intro db c d one document first second third
  have hc : db.load (.ok c) = .ok [first, second] := rfl
  have hwhole : db.load (.ok (c ++ Log.lineFeedOctet :: d)) = .ok [first, second, third] := rfl
  have hfind : db.find document .null (.ok c) = .ok [first, second] := rfl
  obtain ⟨added, hd, hadded, _, hfinds⟩ :=
    (find_appended db rfl document).2 c d _ _ hc hwhole
  obtain ⟨found', hfind', hkept, _⟩ := hfinds _ (List.cons_ne_nil _ _) hfind
  have hfound' : Except.ok found' = (.ok [third, second] : Outcome (List Record)) := hfind'.symm
  have hthird : [first, second] ++ [third] = [first, second] ++ added := hadded
  exact ⟨hc, hfind, added, found', hd, (List.append_cancel_left hthird).symm, hfind',
    Except.ok.inj hfound', hkept⟩

end RecordLog
