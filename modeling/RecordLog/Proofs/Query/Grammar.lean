import Mathlib.Data.List.Forall2
import RecordLog.Proofs.Outcomes
import RecordLog.Proofs.Query.Agreement

/-!
# The grammar of query documents

A query document can be ill formed in several places: the body of a combination, the items of
the body, and the entries, each a field with its sub-query.  They are visited in the order in
which they are written.

* `Place.Offends` says how a place can be ill formed, and with what error, and `Describes` what
  clause an entry makes otherwise;
* `Follows` says of a reading that it follows the places: it gives the clauses of their entries
  if none of them is ill formed, and else the error of the first one that is.  Readings that
  follow two lists of places follow both, one after the other (`Follows.append`), so there is one
  lemma for each function that reads a part of a document;
* `classify_grammar` concludes for whole documents.  Their first key alone decides what they
  are, and from that what places are visited.
-/

namespace RecordLog

/-- Different operators have different symbols. -/
theorem Operator.symbol_injective : Function.Injective symbol := by
  intro op other h
  have hsome := ofSymbol?_symbol op
  rw [h, ofSymbol?_symbol] at hsome
  exact (Option.some.inj hsome).symm

/-- An operator is named by its symbol, and by no other text. -/
theorem Operator.ofSymbol?_eq_some_iff {t : Text} {op : Operator} :
    ofSymbol? t = some op ↔ t = op.symbol := by
  constructor
  · intro h
    rw [ofSymbol?] at h
    simpa [eq_comm] using List.find?_some h
  · rintro rfl
    exact ofSymbol?_symbol op

/-- A text names no operator exactly if it is the symbol of none. -/
theorem Operator.ofSymbol?_eq_none_iff {t : Text} :
    ofSymbol? t = none ↔ ∀ op : Operator, t ≠ op.symbol := by
  simp only [Option.eq_none_iff_forall_ne_some, ne_eq, ofSymbol?_eq_some_iff]

/-- The operator can take the operand: candidates come in a list. -/
def Operator.Takes (op : Operator) (operand : Json) : Prop :=
  op = oneOf → ∃ items, operand = .arr items

/-- An operand that an operator takes is left as it is. -/
theorem Operator.checkOperand_of_takes {op : Operator} {operand : Json} (h : op.Takes operand) :
    op.checkOperand operand = .ok operand := by
  cases op with
  | oneOf =>
      obtain ⟨items, rfl⟩ := h rfl
      rfl
  | _ => rfl

/-- Only the operator for one of several candidates is particular: what it does not take is no
list. -/
theorem Operator.checkOperand_of_not_takes {op : Operator} {operand : Json}
    (h : ¬ op.Takes operand) :
    op = oneOf ∧ (∀ items, operand ≠ .arr items) ∧
      op.checkOperand operand =
        .error (.make .missingComparison (op.symbol ++ " expects a list of candidates")
          [("operator", .str op.symbol)]) := by
  obtain ⟨rfl, hlist⟩ := Classical.not_imp.mp h
  have hlist : ∀ items, operand ≠ .arr items := not_exists.mp hlist
  refine ⟨rfl, hlist, ?_⟩
  cases operand with
  | arr items => exact absurd rfl (hlist items)
  | _ => rfl

namespace Query

/-! ### Places -/

/-- A place of a document that can be ill formed. -/
inductive Place where
  /-- The body of a combination. -/
  | body (how : Combination) (value : Json)
  /-- An item of the body of a combination. -/
  | item (how : Combination) (value : Json)
  /-- A field with its sub-query. -/
  | entry (field : Text) (subQuery : Json)

/-- The places of the entries of a field document. -/
def entryPlaces (members : Members) : List Place :=
  members.map fun (field, subQuery) => .entry field subQuery

/-- The places of an item of a body: the item, and then its entries. -/
def itemPlaces (how : Combination) (value : Json) : List Place :=
  .item how value :: entryPlaces (value.members?.getD [])

/-- The places of a body: the body, and then its items, one after the other. -/
def bodyPlaces (how : Combination) (value : Json) : List Place :=
  .body how value :: (value.items?.getD []).flatMap (itemPlaces how)

namespace Place

/-- The field and the sub-query of an entry. -/
def entry? : Place → Option (Text × Json)
  | entry field subQuery => some (field, subQuery)
  | _ => none

/-- What stands at the place is ill formed, and has this error. -/
inductive Offends : Place → QueryError → Prop
  /-- The body of a combination is no list. -/
  | body {how : Combination} {value : Json} (h : ∀ items, value ≠ .arr items) :
      Offends (.body how value)
        (.make .unknownForm (how.key ++ " expects a list of field queries") [])
  /-- An item of a body is no object. -/
  | item {how : Combination} {value : Json} (h : ∀ members, value ≠ .obj members) :
      Offends (.item how value)
        (.make .unknownForm (how.key ++ " entries must be field queries") [])
  /-- A sub-query is no object, or an empty one. -/
  | comparison {field : Text} {subQuery : Json}
      (h : ∀ member later, subQuery ≠ .obj (member :: later)) :
      Offends (.entry field subQuery) (missingComparison field)
  /-- The first key of a sub-query is no operator. -/
  | operator {field name : Text} {operand : Json} {later : Members}
      (h : ∀ op : Operator, name ≠ op.symbol) :
      Offends (.entry field (.obj ((name, operand) :: later)))
        (.make .unknownOperator (Operator.unknownMessage (.str name)) [("operator", .str name)])
  /-- The first key of a sub-query asks for one of several candidates, and its value is no
  list of them. -/
  | candidates {field : Text} {operand : Json} {later : Members}
      (h : ∀ items, operand ≠ .arr items) :
      Offends (.entry field (.obj ((Operator.oneOf.symbol, operand) :: later)))
        (.make .missingComparison (Operator.oneOf.symbol ++ " expects a list of candidates")
          [("operator", .str Operator.oneOf.symbol)])

/-- What stands at the place is well formed. -/
def Sound (p : Place) : Prop :=
  ∀ e, ¬ p.Offends e

theorem sound_body (how : Combination) (items : List Json) : Sound (.body how (.arr items)) := by
  intro e he
  cases he with
  | body hlist => exact hlist items rfl

theorem sound_item (how : Combination) (members : Members) :
    Sound (.item how (.obj members)) := by
  intro e he
  cases he with
  | item hobj => exact hobj members rfl

/-- An operator with an operand that it takes is a well-formed sub-query. -/
theorem sound_entry (op : Operator) {operand : Json} (h : op.Takes operand) (field : Text)
    (later : Members) : Sound (.entry field (.obj ((op.symbol, operand) :: later))) := by
  intro e he
  generalize hname : op.symbol = name at he
  cases he with
  | comparison hnone => exact hnone _ _ rfl
  | operator hunknown => exact hunknown op hname.symm
  | candidates hlist =>
      obtain ⟨items, hitems⟩ := h (Operator.symbol_injective hname)
      exact hlist items hitems

/-- A place is ill formed in one way only. -/
theorem Offends.unique {p : Place} {e f : QueryError} (he : p.Offends e) (hf : p.Offends f) :
    e = f := by
  cases he with
  | body => cases hf; rfl
  | item => cases hf; rfl
  | comparison h =>
      cases hf with
      | comparison => rfl
      | operator => exact absurd rfl (h _ _)
      | candidates => exact absurd rfl (h _ _)
  | operator h =>
      cases hf with
      | comparison hsub => exact absurd rfl (hsub _ _)
      | operator => rfl
      | candidates => exact absurd rfl (h .oneOf)
  | candidates h =>
      cases hf with
      | comparison hsub => exact absurd rfl (hsub _ _)
      | operator hname => exact absurd rfl (hname .oneOf)
      | candidates => rfl

end Place

/-- The clause of an entry: its field, and the first operator and operand of its sub-query. -/
def Describes (entry : Text × Json) (clause : Clause) : Prop :=
  clause.field = entry.1 ∧
    ∃ later, entry.2 = .obj ((clause.op.symbol, clause.operand) :: later)

/-- An entry has one clause only. -/
theorem Describes.unique {entry : Text × Json} {c d : Clause} (hc : Describes entry c)
    (hd : Describes entry d) : c = d := by
  obtain ⟨field, op, operand⟩ := c
  obtain ⟨field', op', operand'⟩ := d
  obtain ⟨rfl, later, hlater⟩ := hc
  obtain ⟨rfl, later', hlater'⟩ := hd
  rw [hlater] at hlater'
  simp only [Json.obj.injEq, List.cons.injEq, Prod.mk.injEq] at hlater'
  obtain ⟨⟨hsymbol, rfl⟩, _⟩ := hlater'
  rw [Operator.symbol_injective hsymbol]

/-- The first of the places that is ill formed has this error. -/
def FirstOffence (places : List Place) (e : QueryError) : Prop :=
  ∃ before p after, places = before ++ p :: after ∧ (∀ b ∈ before, b.Sound) ∧ p.Offends e

/-- The clauses of the entries among the places. -/
def Clauses (places : List Place) (clauses : List Clause) : Prop :=
  List.Forall₂ Describes (places.filterMap Place.entry?) clauses

/-- Where there is a first offence, some place is ill formed. -/
theorem FirstOffence.not_sound {places : List Place} {e : QueryError}
    (h : FirstOffence places e) : ∃ p ∈ places, ¬ p.Sound := by
  obtain ⟨before, p, after, rfl, _, hp⟩ := h
  exact ⟨p, List.mem_append_right before List.mem_cons_self, fun hsound => hsound e hp⟩

/-- What comes later does not change which offence is first. -/
theorem FirstOffence.append_left {places : List Place} {e : QueryError}
    (h : FirstOffence places e) (more : List Place) : FirstOffence (places ++ more) e := by
  obtain ⟨before, p, after, rfl, hbefore, hp⟩ := h
  exact ⟨before, p, after ++ more, by rw [List.append_assoc, List.cons_append], hbefore, hp⟩

/-- Behind well-formed places the first offence is still the first. -/
theorem FirstOffence.append_right {more : List Place} {e : QueryError}
    (h : FirstOffence more e) {places : List Place} (hplaces : ∀ p ∈ places, p.Sound) :
    FirstOffence (places ++ more) e := by
  obtain ⟨before, p, after, rfl, hbefore, hp⟩ := h
  exact ⟨places ++ before, p, after, by rw [List.append_assoc],
    List.forall_mem_append.mpr ⟨hplaces, hbefore⟩, hp⟩

/-- Only one error belongs to the first offence. -/
theorem FirstOffence.unique {places : List Place} {e f : QueryError}
    (he : FirstOffence places e) (hf : FirstOffence places f) : e = f := by
  obtain ⟨before, p, after, rfl, hbefore, hp⟩ := he
  obtain ⟨before', q, after', heq, hbefore', hq⟩ := hf
  rcases List.append_eq_append_iff.mp heq with ⟨between, rfl, hrest⟩ | ⟨between, rfl, hrest⟩
  · cases between with
    | nil =>
        obtain ⟨rfl, rfl⟩ := List.cons.inj hrest
        exact hp.unique hq
    | cons r between =>
        obtain ⟨rfl, _⟩ := List.cons.inj hrest
        exact absurd hp (hbefore' p (List.mem_append_right before List.mem_cons_self) e)
  · cases between with
    | nil =>
        obtain ⟨rfl, rfl⟩ := List.cons.inj hrest
        exact hp.unique hq
    | cons r between =>
        obtain ⟨rfl, _⟩ := List.cons.inj hrest
        exact absurd hq (hbefore q (List.mem_append_right before' List.mem_cons_self) f)

/-! ### Readings that follow places -/

/-- A reading gives the clauses of the places if these are well formed, and the error of the
first one that is not. -/
def Follows (places : List Place) : Except QueryError (List Clause) → Prop
  | .ok clauses => (∀ p ∈ places, p.Sound) ∧ Clauses places clauses
  | .error e => FirstOffence places e

namespace Follows

variable {places more : List Place} {outcome : Except QueryError (List Clause)}

/-- Where reading stops, what comes later is not visited. -/
theorem stop {e : QueryError} (h : Follows places (.error e)) (more : List Place) :
    Follows (places ++ more) (.error e) :=
  FirstOffence.append_left h more

/-- Two readings that follow their places, one after the other, follow all of them. -/
theorem append {clauses : List Clause} (h : Follows places (.ok clauses))
    (hmore : Follows more outcome) :
    Follows (places ++ more) (outcome.map (clauses ++ ·)) := by
  cases outcome with
  | error e => exact FirstOffence.append_right hmore h.1
  | ok others =>
      refine ⟨List.forall_mem_append.mpr ⟨h.1, hmore.1⟩, ?_⟩
      rw [Clauses, List.filterMap_append]
      exact List.rel_append h.2 hmore.2

/-- A reading that follows places gives their clauses exactly if all of them are well formed. -/
theorem eq_ok_iff (h : Follows places outcome) {clauses : List Clause} :
    outcome = .ok clauses ↔ (∀ p ∈ places, p.Sound) ∧ Clauses places clauses := by
  constructor
  · rintro rfl
    exact h
  · rintro ⟨hsound, hclauses⟩
    cases outcome with
    | error e =>
        obtain ⟨p, hp, hbad⟩ := FirstOffence.not_sound h
        exact absurd (hsound p hp) hbad
    | ok others =>
        have hunique : Relator.RightUnique Describes := fun _ _ _ hc hd => hc.unique hd
        rw [hunique.forall₂ h.2 hclauses]

/-- A reading that follows places gives an error exactly if it is that of the first offence. -/
theorem eq_error_iff (h : Follows places outcome) {e : QueryError} :
    outcome = .error e ↔ FirstOffence places e := by
  constructor
  · rintro rfl
    exact h
  · intro he
    cases outcome with
    | error f => rw [FirstOffence.unique he h]
    | ok clauses =>
        obtain ⟨p, hp, hbad⟩ := he.not_sound
        exact absurd (h.1 p hp) hbad

/-- A place that is read by itself gives what it holds, or its error. -/
theorem of_sound {p : Place} {clauses : List Clause} (hp : p.Sound)
    (hclauses : Clauses [p] clauses) : Follows [p] (.ok clauses) :=
  ⟨List.forall_mem_singleton.mpr hp, hclauses⟩

/-- The error of a place is that of a reading which stops there. -/
theorem of_offends {p : Place} {e : QueryError} (hp : p.Offends e) : Follows [p] (.error e) :=
  ⟨[], p, [], rfl, List.forall_mem_nil _, hp⟩

end Follows

/-- A clause is read as its entry says. -/
theorem follows_readClause (field : Text) (subQuery : Json) :
    Follows [.entry field subQuery] ((readClause field subQuery).map ([·])) := by
  unfold readClause
  split
  · next name operand later =>
      cases hop : Operator.ofSymbol? name with
      | none =>
          simp only [Operator.ofJson, hop]
          exact Follows.of_offends (.operator (Operator.ofSymbol?_eq_none_iff.mp hop))
      | some op =>
          obtain rfl := Operator.ofSymbol?_eq_some_iff.mp hop
          simp only [Operator.ofJson, hop]
          by_cases htakes : op.Takes operand
          · have hclause : Describes (field, .obj ((op.symbol, operand) :: later))
                ⟨field, op, operand⟩ := ⟨rfl, later, rfl⟩
            rw [Operator.checkOperand_of_takes htakes]
            exact Follows.of_sound (Place.sound_entry _ htakes field later) (.cons hclause .nil)
          · obtain ⟨rfl, hlist, hcheck⟩ := Operator.checkOperand_of_not_takes htakes
            rw [hcheck]
            exact Follows.of_offends (.candidates hlist)
  · next h =>
      refine Follows.of_offends (.comparison ?_)
      rintro ⟨name, operand⟩ later rfl
      exact h name operand later rfl

/-- The clauses of a field document are read entry by entry. -/
theorem follows_readClauses (members : Members) :
    Follows (entryPlaces members) (readClauses members) := by
  induction members with
  | nil => exact ⟨List.forall_mem_nil _, .nil⟩
  | cons member later ih =>
      obtain ⟨field, subQuery⟩ := member
      have hclause := follows_readClause field subQuery
      rw [readClauses]
      cases hread : readClause field subQuery with
      | error e =>
          rw [hread] at hclause
          exact hclause.stop (entryPlaces later)
      | ok clause =>
          rw [hread] at hclause
          exact hclause.append ih

/-- An object in a combination is visited before its entries. -/
theorem follows_readItem (how : Combination) (members : Members) :
    Follows (itemPlaces how (.obj members)) (readClauses members) := by
  have h := (Follows.of_sound (Place.sound_item how members) .nil).append
    (follows_readClauses members)
  cases hread : readClauses members with
  | error e => rwa [hread] at h
  | ok clauses => rwa [hread] at h

/-- The documents in a combination are read one after the other. -/
theorem follows_readDocuments (how : Combination) (items : List Json) :
    Follows (items.flatMap (itemPlaces how)) (readDocuments how items) := by
  induction items with
  | nil => exact ⟨List.forall_mem_nil _, .nil⟩
  | cons item later ih =>
      rw [List.flatMap_cons]
      unfold readDocuments
      split
      · next h => cases h
      · next members others heq =>
          obtain ⟨rfl, rfl⟩ := List.cons.inj heq
          have hitem := follows_readItem how members
          cases hread : readClauses members with
          | error e =>
              rw [hread] at hitem
              exact hitem.stop _
          | ok clauses =>
              rw [hread] at hitem
              exact hitem.append ih
      · next other others hobj heq =>
          obtain ⟨rfl, rfl⟩ := List.cons.inj heq
          have hoffends : Follows [.item how item] _ := Follows.of_offends (.item hobj)
          exact (hoffends.stop _).stop _

/-- The body of a combination is visited before the documents in it. -/
theorem follows_readBody (how : Combination) (value : Json) :
    Follows (bodyPlaces how value) (readBody how value) := by
  unfold readBody
  split
  · next items =>
      have h := (Follows.of_sound (Place.sound_body how items) .nil).append
        (follows_readDocuments how items)
      cases hread : readDocuments how items with
      | error e => rwa [hread] at h
      | ok clauses => rwa [hread] at h
  · next hlist => exact (Follows.of_offends (.body hlist)).stop _

/-! ### Documents -/

/-- What becomes of a document of some form whose places are visited in this order: it is
accepted if all of them are well formed, and then it has the clauses of their entries; else it is
refused with the error of the first place that is ill formed, whatever comes after it. -/
structure Judged (places : List Place) (form : List Clause → Query)
    (outcome : Except QueryError Query) : Prop where
  accepted : ∀ q, outcome = .ok q ↔
    (∀ p ∈ places, p.Sound) ∧ ∃ clauses, Clauses places clauses ∧ q = form clauses
  refused : (∃ e, outcome = .error e) ↔ ∃ p ∈ places, ¬ p.Sound
  reported : ∀ e, outcome = .error e ↔ FirstOffence places e

/-- A reading that follows its places judges the document by them. -/
theorem Follows.judged {places : List Place} {outcome : Except QueryError (List Clause)}
    (h : Follows places outcome) (form : List Clause → Query) :
    Judged places form (outcome.map form) := by
  have herror : ∀ e, outcome.map form = .error e ↔ FirstOffence places e := by
    intro e
    rw [← h.eq_error_iff]
    cases outcome with
    | error f => simp only [Except.map, Except.error.injEq]
    | ok clauses => exact ⟨nofun, nofun⟩
  refine ⟨?_, ?_, herror⟩
  · intro q
    rw [map_eq_ok_iff]
    simp only [h.eq_ok_iff, and_assoc, exists_and_left, eq_comm]
  · constructor
    · rintro ⟨e, he⟩
      exact ((herror e).mp he).not_sound
    · rintro ⟨p, hp, hbad⟩
      cases outcome with
      | error e => exact ⟨e, rfl⟩
      | ok clauses => exact absurd (h.1 p hp) hbad

/-- **The grammar of query documents.**  The first key of a nonempty document alone decides what
the document is: a search for words, a combination, a field document if it is a field of some
record, and else nothing known.  A combination is judged by its body, the items of the body and
their entries, a field document by all of its entries: the document is accepted exactly if none
of them is ill formed, it has one clause for each entry, in this order, and it is refused with
the error of the first one that is ill formed. -/
theorem classify_grammar (key : Text) (value : Json) (later : Members)
    (knownFields : List Text) :
    let outcome := classify (.obj ((key, value) :: later)) knownFields
    (key = wordsKey → outcome = .ok (.words (phraseOf value))) ∧
    (∀ how : Combination, key = how.key →
      Judged (bodyPlaces how value) (.combined how) outcome) ∧
    (key ≠ wordsKey → (∀ how : Combination, key ≠ how.key) →
      (key ∈ knownFields → Judged (entryPlaces ((key, value) :: later)) .fields outcome) ∧
      (key ∉ knownFields → outcome =
        .error (.make .unknownForm ("unhandled query format: " ++ Text.quoted key)
          [("key", .str key)]))) := by
  intro outcome
  refine ⟨?_, ?_, fun hwords hhow => ⟨?_, ?_⟩⟩
  · intro hwords
    exact if_pos hwords
  · rintro how rfl
    have hclassify : outcome = _ := classify_combination how value later knownFields
    rw [hclassify]
    exact (follows_readBody how value).judged (.combined how)
  · intro hknown
    have hclassify : outcome = _ := classify_fields value later hwords hhow hknown
    rw [hclassify]
    exact (follows_readClauses ((key, value) :: later)).judged .fields
  · intro hunknown
    have hnone : Combination.ofKey? key = none := by
      rw [Combination.ofKey?, if_neg (hhow .all), if_neg (hhow .any)]
    simp only [outcome, classify, if_neg hwords, hnone, Text.isOneOf_iff, if_neg hunknown]

/-- Three places of a document are ill formed.  It has the error of the first of them, which is
the second of its entries; up to there it is well formed.  Without the offences, the clauses are
those of the entries, with the first operators of their sub-queries. -/
theorem classify_grammar_three_offences :
    let first : Members := [("a", .obj [("$lt", .int 2), ("$eq", .null)])]
    let second : Members := [("b", .obj [("$ne", .int 1)]), ("c", .int 5)]
    let third : Members := [("d", .obj [("$in", .arr [])])]
    classify (.obj [("$or", .arr [.obj first, .obj second, .int 3])]) [] =
        .error (.make .unknownOperator (Operator.unknownMessage (.str "$ne"))
          [("operator", .str "$ne")]) ∧
      classify (.obj [("$or", .arr [.obj first, .obj third]), ("$text", .null)]) [] =
        .ok (.combined .any [⟨"a", .less, .int 2⟩, ⟨"d", .oneOf, .arr []⟩]) := by
  intro first second third
  have hless : Place.Sound (.entry "a" (.obj [("$lt", .int 2), ("$eq", .null)])) :=
    Place.sound_entry .less nofun _ _
  have honeOf : Place.Sound (.entry "d" (.obj [("$in", .arr [])])) :=
    Place.sound_entry .oneOf (fun _ => ⟨[], rfl⟩) _ _
  have hunknown : ∀ op : Operator, Text.ofString "$ne" ≠ op.symbol := by
    intro op
    cases op <;> decide +kernel
  constructor
  · refine (((classify_grammar "$or" _ [] []).2.1 .any rfl).reported _).mpr ?_
    refine ⟨[.body .any _, .item .any (.obj first), .entry "a" _, .item .any (.obj second)],
      .entry "b" _, [.entry "c" (.int 5), .item .any (.int 3)], rfl, ?_, .operator hunknown⟩
    simp only [List.forall_mem_cons]
    exact ⟨Place.sound_body _ _, Place.sound_item _ _, hless, Place.sound_item _ _, nofun⟩
  · refine (((classify_grammar "$or" _ [("$text", .null)] []).2.1 .any rfl).accepted _).mpr ?_
    refine ⟨?_, _, .cons ⟨rfl, _, rfl⟩ (.cons ⟨rfl, _, rfl⟩ .nil), rfl⟩
    have hplaces : bodyPlaces .any (.arr [.obj first, .obj third]) =
        [.body .any (.arr [.obj first, .obj third]), .item .any (.obj first),
          .entry "a" (.obj [("$lt", .int 2), ("$eq", .null)]), .item .any (.obj third),
          .entry "d" (.obj [("$in", .arr [])])] := rfl
    rw [hplaces]
    simp only [List.forall_mem_cons]
    exact ⟨Place.sound_body _ _, Place.sound_item _ _, hless, Place.sound_item _ _, honeOf, nofun⟩

end Query

end RecordLog
