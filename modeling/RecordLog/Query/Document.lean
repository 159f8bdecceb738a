import RecordLog.Query.Operator

/-!
# Query documents

A query is written as a JSON object.  Its first key alone decides its form:

* no key: every record matches;
* `$text`: a search for words;
* `$and` or `$or`: a list of field documents, whose clauses are combined;
* a field that some record has: all members are clauses, which must all hold.

A clause gives a field and a nonempty object, of which the first member alone
counts: an operator and an operand.  The first offence met from left to right
refuses the document.
-/

namespace RecordLog

/-- A comparison of one field. -/
structure Clause where
  field : Text
  op : Operator
  operand : Json

/-- How the results of clauses are combined. -/
inductive Combination where
  | all
  | any
deriving DecidableEq

namespace Combination

/-- The key of a combination in a query. -/
def key : Combination → Text
  | all => "$and"
  | any => "$or"

/-- The combination that a key stands for. -/
def ofKey? (t : Text) : Option Combination :=
  if t = all.key then some all
  else if t = any.key then some any
  else none

end Combination

/-- A query whose form has been recognised. -/
inductive Query where
  | everything
  | words (phrase : Text)
  | combined (how : Combination) (clauses : List Clause)
  | fields (clauses : List Clause)

namespace Query

/-- The key of a search for words. -/
def wordsKey : Text := "$text"

/-- A clause without an object that names an operator. -/
def missingComparison (field : Text) : QueryError :=
  .make .missingComparison
    ("sub-query for " ++ Text.quoted field ++ " must map an operator to a value")
    [("field", .str field)]

/-- The clause that a field and its sub-query make. -/
def readClause (field : Text) (subQuery : Json) : Except QueryError Clause :=
  match subQuery with
  | .obj ((name, operand) :: _) =>
    match Operator.ofJson (.str name) with
    | .error e => .error e
    | .ok op =>
      match op.checkOperand operand with
      | .error e => .error e
      | .ok operand => .ok ⟨field, op, operand⟩
  | _ => .error (missingComparison field)

/-- The clauses of the members of a field document. -/
def readClauses : Members → Except QueryError (List Clause)
  | [] => .ok []
  | (field, subQuery) :: later =>
    match readClause field subQuery with
    | .error e => .error e
    | .ok clause => (readClauses later).map (clause :: ·)

/-- The clauses of a list of field documents, one document after the other. -/
def readDocuments (how : Combination) : List Json → Except QueryError (List Clause)
  | [] => .ok []
  | .obj members :: later =>
    match readClauses members with
    | .error e => .error e
    | .ok clauses => (readDocuments how later).map (clauses ++ ·)
  | _ :: _ =>
    .error (.make .unknownForm (how.key ++ " entries must be field queries") [])

/-- The clauses of the body of a combination. -/
def readBody (how : Combination) (body : Json) : Except QueryError (List Clause) :=
  match body with
  | .arr documents => readDocuments how documents
  | _ => .error (.make .unknownForm (how.key ++ " expects a list of field queries") [])

/-- The phrase that the value of a search stands for. -/
def phraseOf : Json → Text
  | .null => []
  | v => v.plain

/-- The query that a document describes, over records with the given fields. -/
def classify (document : Json) (knownFields : List Text) : Except QueryError Query :=
  match document with
  | .obj [] => .ok .everything
  | .obj ((key, value) :: later) =>
    if key = wordsKey then .ok (.words (phraseOf value))
    else
      match Combination.ofKey? key with
      | some how => (readBody how value).map (.combined how)
      | none =>
        if key.isOneOf knownFields then (readClauses ((key, value) :: later)).map .fields
        else
          .error (.make .unknownForm ("unhandled query format: " ++ Text.quoted key)
            [("key", .str key)])
  | _ => .error (.make .unknownForm "query must be an object" [])

end Query

end RecordLog
