import RecordLog.Proofs.Database.Keyed

/-!
# Membership tests and unions

Asking for one of several candidates can be written as a membership test, or as a union that
asks for each candidate on its own.  The first is one filter; the second puts the results for
the candidates one after the other, and drops a record whose identity it has already.

Where identities are distinct, what a union drops is the record itself, found before.  So a
union finds each record once, at the first clause that it satisfies
(`Combination.select_any_of_nodup`), and `find_membership_agrees` concludes that both
documents find the same records: the test in the order of the log, and the union grouped by
the first candidate that the field equals.
-/

namespace RecordLog

/-! ### The first element of each key -/

section KeepFirst

variable {α β : Type} [DecidableEq β] (key : α → β)

/-- Of a second list those elements are kept whose keys the first list does not have. -/
theorem keepFirst_append (xs ys : List α) :
    keepFirst key (xs ++ ys) =
      keepFirst key xs ++ (keepFirst key ys).filter fun y => key y ∉ xs.map key := by
  induction xs with
  | nil => simp only [List.nil_append, keepFirst, List.map_nil, List.not_mem_nil,
      not_false_eq_true, decide_true, List.filter_true]
  | cons x xs ih =>
      rw [List.cons_append, keepFirst, ih, List.filter_append, List.filter_filter, keepFirst,
        List.cons_append]
      congr 2
      apply List.filter_congr
      intro y _
      simp only [List.map_cons, List.mem_cons, not_or, Bool.decide_and]

/-- A list of distinct keys is kept whole. -/
theorem keepFirst_eq_self {xs : List α} (h : (xs.map key).Nodup) : keepFirst key xs = xs := by
  induction xs with
  | nil => rfl
  | cons x xs ih =>
      obtain ⟨hx, hxs⟩ := List.nodup_cons.mp h
      rw [keepFirst, ih hxs]
      congr 1
      refine List.filter_eq_self.mpr fun y hy => decide_eq_true fun hkey => hx ?_
      exact hkey ▸ List.mem_map_of_mem hy

end KeepFirst

/-! ### Unions over distinct identities -/

section Union

variable {rs : List Record}

/-- The records that satisfy some clause, grouped by the first clause that they satisfy. -/
def Record.byFirstClause (rs : List Record) (cs : List Clause) : List Record :=
  (List.range cs.length).flatMap fun i =>
    rs.filter fun r => cs.findIdx? (·.accepts r) = some i

/-- What a first clause finds comes first, and does not come again. -/
theorem Record.byFirstClause_cons (rs : List Record) (c : Clause) (cs : List Clause) :
    byFirstClause rs (c :: cs) =
      rs.filter c.accepts ++ (byFirstClause rs cs).filter fun r => !c.accepts r := by
  rw [byFirstClause, List.length_cons, List.range_succ_eq_map, List.flatMap_cons,
    List.flatMap_map, byFirstClause, List.filter_flatMap]
  congr 1
  · apply List.filter_congr
    intro r _
    rw [List.findIdx?_cons]
    cases c.accepts r with
    | true => rfl
    | false => simp
  · congr 1
    funext i
    rw [List.filter_filter]
    apply List.filter_congr
    intro r _
    rw [List.findIdx?_cons]
    cases c.accepts r with
    | true => simp
    | false => simp

/-- Where identities are distinct, a filter finds the identity of a record only if it finds
the record. -/
theorem Record.mem_identities_filter_iff (hrs : (identities rs).Nodup) {r : Record} (hr : r ∈ rs)
    (p : Record → Bool) : identity r ∈ identities (rs.filter p) ↔ p r := by
  constructor
  · intro hmem
    obtain ⟨s, hs, hid⟩ := List.mem_map.mp hmem
    obtain ⟨hs, hp⟩ := List.mem_filter.mp hs
    exact List.inj_on_of_nodup_map hrs hs hr hid ▸ hp
  · intro hp
    exact List.mem_map_of_mem (List.mem_filter.mpr ⟨hr, hp⟩)

/-- The records in the order of their first clauses are those that some clause accepts. -/
theorem Record.mem_byFirstClause {cs : List Clause} {r : Record} :
    r ∈ byFirstClause rs cs ↔ r ∈ rs ∧ cs.any (·.accepts r) := by
  simp only [byFirstClause, List.mem_flatMap, List.mem_range, List.mem_filter, decide_eq_true_eq]
  rw [← List.findIdx?_isSome, Option.isSome_iff_exists]
  constructor
  · rintro ⟨i, -, hr, hi⟩
    exact ⟨hr, i, hi⟩
  · rintro ⟨hr, i, hi⟩
    exact ⟨i, (List.findIdx?_eq_some_iff_findIdx_eq.mp hi).1, hr, hi⟩

/-- Where identities are distinct, a union finds each record at the first clause that it
satisfies. -/
theorem keepFirst_identity_eq (hrs : (Record.identities rs).Nodup) (cs : List Clause) :
    keepFirst Record.identity (cs.flatMap fun c => rs.filter c.accepts) =
      Record.byFirstClause rs cs := by
  induction cs with
  | nil => rfl
  | cons c cs ih =>
      rw [List.flatMap_cons, keepFirst_append, ih,
        keepFirst_eq_self Record.identity (Record.nodup_filter hrs c.accepts),
        Record.byFirstClause_cons]
      congr 1
      apply List.filter_congr
      intro r hr
      have hmem := Record.mem_identities_filter_iff hrs (Record.mem_byFirstClause.mp hr).1 c.accepts
      rw [Record.identities] at hmem
      rw [decide_not, Bool.not_inj_iff, Bool.eq_iff_iff, decide_eq_true_iff]
      exact hmem

/-- If no identity is shared, a disjunction lists the records by their first clauses. -/
theorem Combination.select_any_of_nodup (hrs : (Record.identities rs).Nodup) (cs : List Clause) :
    Combination.any.select rs cs = Clause.outcome rs cs (Record.byFirstClause rs cs) := by
  rw [select_eq, accumulate_any, keepFirst_identity_eq hrs]

/-- Each record is found once, so the union is a rearrangement of one filter. -/
theorem Record.byFirstClause_perm (hrs : (identities rs).Nodup) (cs : List Clause) :
    (byFirstClause rs cs).Perm (rs.filter fun r => cs.any (·.accepts r)) := by
  have hunion : (identities (byFirstClause rs cs)).Nodup := by
    rw [← keepFirst_identity_eq hrs]
    exact nodup_map_keepFirst identity _
  refine (List.perm_ext_iff_of_nodup (List.Nodup.of_map _ hunion)
    ((List.Nodup.of_map _ hrs).filter _)).mpr fun r => ?_
  rw [mem_byFirstClause, List.mem_filter]

end Union

/-! ### The two documents -/

/-- A list of documents of one comparison each. -/
theorem Query.readDocuments_comparisons (how : Combination) (field : Text) (op : Operator)
    {operands : List Json} (h : ∀ operand ∈ operands, op.Takes operand) :
    readDocuments how (operands.map fun v => .obj [(field, .obj [(op.symbol, v)])]) =
      .ok (operands.map fun v => ⟨field, op, v⟩) := by
  induction operands with
  | nil => rfl
  | cons v later ih =>
      obtain ⟨hv, hlater⟩ := List.forall_mem_cons.mp h
      rw [List.map_cons, readDocuments, readClauses_comparison hv, ih hlater]
      rfl

/-- A combination of documents of one comparison each finds what the comparisons select. -/
theorem Database.find_comparisons {db : Database} {reading : LogReading}
    {records found : List Record} (hload : db.load reading = .ok records) (hne : records ≠ [])
    (how : Combination) (field : Text) (op : Operator) {operands : List Json}
    (htakes : ∀ operand ∈ operands, op.Takes operand)
    (hselect : how.select records (operands.map fun v => ⟨field, op, v⟩) = .ok found) :
    db.find (.obj [(how.key, .arr (operands.map fun v => .obj [(field, .obj [(op.symbol, v)])]))])
      .null reading = .ok found := by
  rw [find_asIs hload]
  refine answer_asIs (q := .combined how (operands.map fun v => ⟨field, op, v⟩)) hne ?_ hselect
  refine (Query.classify_combination how _ [] _).trans ?_
  exact congrArg (Except.map (Query.combined how))
    (Query.readDocuments_comparisons how field op htakes)

/-- **A membership test agrees with the union of its equalities.**  Let the identities of the
loaded records be distinct, and let a field be known that is no key with a meaning of its
own.  For any candidates, which may be none, repeat, and be of any kinds, the membership test
and the `$or` of one equality for each candidate find the same records.  The test finds them
in the order of the log.  The union finds for each candidate, in the order of candidates,
those whose field equals this candidate and none before it, in the order of the log. -/
theorem find_membership_agrees {db : Database} {reading : LogReading} {records : List Record}
    (hload : db.load reading = .ok records) (hdistinct : (Record.identities records).Nodup)
    {field : Text} (hwords : field ≠ Query.wordsKey)
    (hhow : ∀ how : Combination, field ≠ how.key)
    (hknown : ∃ r ∈ records, field ∈ Members.keys r) (candidates : List Json) :
    let equals (r : Record) (v : Json) : Bool := (Members.getOrNull r field).strictEq v
    let test : Json := .obj [(field, .obj [("$in", .arr candidates)])]
    let union : Json :=
      .obj [("$or", .arr (candidates.map fun v => .obj [(field, .obj [("$eq", v)])]))]
    ∃ tested united, db.find test .null reading = .ok tested ∧
      db.find union .null reading = .ok united ∧ united.Perm tested ∧
      tested = (records.filter fun r => candidates.any (equals r)) ∧
      united = (List.range candidates.length).flatMap fun i =>
        records.filter fun r => candidates.findIdx? (equals r) = some i := by
  intro equals test union
  let clauses : List Clause := candidates.map fun v => ⟨field, .equal, v⟩
  have hany : ∀ r, clauses.any (·.accepts r) = candidates.any (equals r) := by
    intro r
    rw [List.any_map]
    rfl
  have hfirst : ∀ r, clauses.findIdx? (·.accepts r) = candidates.findIdx? (equals r) := by
    intro r
    rw [List.findIdx?_map]
    rfl
  have htest : db.find test .null reading =
      .ok (records.filter fun r => candidates.any (equals r)) :=
    Database.find_comparison hload hwords hhow hknown .oneOf fun _ => ⟨_, rfl⟩
  have hunion : db.find union .null reading = .ok (Record.byFirstClause records clauses) := by
    have hne : records ≠ [] := by
      obtain ⟨_, hr, _⟩ := hknown
      exact List.ne_nil_of_mem hr
    have hanswerable : Clause.AnswerableOver records clauses := by
      refine .inr fun c hc => ?_
      obtain ⟨v, -, rfl⟩ := List.mem_map.mp hc
      exact nofun
    refine Database.find_comparisons hload hne .any field .equal (fun _ _ => nofun) ?_
    rw [Combination.select_any_of_nodup hdistinct]
    exact if_pos hanswerable
  refine ⟨_, _, htest, hunion, ?_, rfl, ?_⟩
  · simp only [← hany]
    exact Record.byFirstClause_perm hdistinct clauses
  · simp only [Record.byFirstClause, hfirst, clauses, List.length_map]

/-- Three records, of which the second one has no such field, and candidates of several kinds
that come in another order and repeat. -/
theorem find_membership_agrees_mixed_candidates :
    let db : Database := ⟨⟨.here, ["db.log"]⟩, [], false⟩
    let log : Octets :=
      [0x45, 0x7B, 0x22, 0x5F, 0x69, 0x64, 0x22, 0x3A, 0x22, 0x78, 0x22, 0x2C, 0x22, 0x61, 0x22,
        0x3A, 0x22, 0x31, 0x22, 0x7D, 0x0A,
        0x45, 0x7B, 0x22, 0x5F, 0x69, 0x64, 0x22, 0x3A, 0x22, 0x79, 0x22, 0x7D, 0x0A,
        0x45, 0x7B, 0x22, 0x5F, 0x69, 0x64, 0x22, 0x3A, 0x22, 0x7A, 0x22, 0x2C, 0x22, 0x61, 0x22,
        0x3A, 0x74, 0x72, 0x75, 0x65, 0x7D]
    let first : Record := [("_id", .str "x"), ("a", .str "1")]
    let second : Record := [("_id", .str "y")]
    let third : Record := [("_id", .str "z"), ("a", .bool true)]
    let candidates : List Json := [.bool true, .int 1, .null, .bool true, .str "1"]
    db.load (.ok log) = .ok [first, second, third] ∧
      (Record.identities [first, second, third]).Nodup ∧
      (∃ r ∈ [first, second, third], ("a" : Text) ∈ Members.keys r) ∧
      ∃ tested united,
        db.find (.obj [("a", .obj [("$in", .arr candidates)])]) .null (.ok log) = .ok tested ∧
        db.find (.obj [("$or", .arr (candidates.map fun v => .obj [("a", .obj [("$eq", v)])]))])
          .null (.ok log) = .ok united ∧
        united.Perm tested ∧ tested = [first, second, third] ∧
        united = [third, second, first] := by
  intro db log first second third candidates
  have hload : db.load (.ok log) = .ok [first, second, third] := rfl
  have hdistinct : (Record.identities [first, second, third]).Nodup := by decide +kernel
  have hwords : Text.ofString "a" ≠ Query.wordsKey := by decide +kernel
  have hhow : ∀ how : Combination, Text.ofString "a" ≠ how.key := by
    intro how
    cases how <;> decide +kernel
  have hknown : ∃ r ∈ [first, second, third], Text.ofString "a" ∈ Members.keys r :=
    ⟨first, List.mem_cons_self, List.mem_cons_of_mem _ List.mem_cons_self⟩
  obtain ⟨tested, united, htest, hunion, hperm, htested, hunited⟩ :=
    find_membership_agrees hload hdistinct hwords hhow hknown candidates
  exact ⟨hload, hdistinct, hknown, tested, united, htest, hunion, hperm, htested, hunited⟩

end RecordLog
