import RecordLog.Record
import RecordLog.Query.Document

/-!
# Combining results

The results of clauses are lists of records, and they are combined one after the
other into an accumulator.  A union adds the records with new identities at the
end; an intersection keeps the records whose identity the next result has too.
Before anything was combined there is no accumulator, and the first result stands
as it is, except that a union drops repeated identities from it.
-/

namespace RecordLog

namespace Record

/-- The identities of records. -/
def identities (rs : List Record) : List Identity :=
  rs.map identity

/-- Adds a record at the end unless its identity is there already. -/
def addNew (rs : List Record) (r : Record) : List Record :=
  if identity r ∈ identities rs then rs else rs ++ [r]

/-- The union of an accumulator and a result. -/
def unite (acc : Option (List Record)) (result : List Record) : List Record :=
  result.foldl addNew (acc.getD [])

/-- The intersection of an accumulator and a result. -/
def intersect (acc : Option (List Record)) (result : List Record) : List Record :=
  match acc with
  | none => result
  | some rs => rs.filter fun r => identity r ∈ identities result

end Record

/-- Combines an accumulator with the next result. -/
def Combination.apply : Combination → Option (List Record) → List Record → List Record
  | .all => Record.intersect
  | .any => Record.unite

/-- The records that satisfy a clause, in their order. -/
def Clause.select (clause : Clause) : List Record → Outcome (List Record)
  | [] => .ok []
  | r :: rs =>
    match clause.op.holds (Members.getOrNull r clause.field) clause.operand with
    | .error e => .error e
    | .ok true => (clause.select rs).map (r :: ·)
    | .ok false => clause.select rs

/-- Combines the results of clauses into an accumulator. -/
def Combination.fold (how : Combination) (rs : List Record) :
    Option (List Record) → List Clause → Outcome (Option (List Record))
  | acc, [] => .ok acc
  | acc, clause :: clauses =>
    match clause.select rs with
    | .error e => .error e
    | .ok result => how.fold rs (some (how.apply acc result)) clauses

/-- The records that clauses select when combined; none without clauses. -/
def Combination.select (how : Combination) (rs : List Record) (clauses : List Clause) :
    Outcome (List Record) :=
  (how.fold rs none clauses).map (·.getD [])

/-- A combination given by its key. -/
def Combination.selectNamed (key : Text) (rs : List Record) (clauses : List Clause) :
    Outcome (List Record) :=
  match Combination.ofKey? key with
  | some how => how.select rs clauses
  | none =>
    .error (.query (.make .unknownCombination
      ("unhandled set operator: " ++ Text.quoted key) []))

end RecordLog
