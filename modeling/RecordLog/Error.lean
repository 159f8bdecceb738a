import RecordLog.Json.Display

/-!
# Query errors

Everything that a caller can do wrong, and everything that can be wrong with a
log, is reported as a `QueryError`: a kind, a message, and details by name.  The
kind fixes the code and the status that programs see; the message and the details
are for people.

Details that are null are left out when the error is made, so no report ever
shows one.
-/

namespace RecordLog

/-- What kind of thing went wrong. -/
inductive ErrorKind where
  /-- A query failed for a reason that has no kind of its own. -/
  | failedQuery
  /-- A log line that is marked as an entry does not hold a record. -/
  | undecodableEntry
  /-- Two records of a log have one identity. -/
  | duplicateIdentity
  /-- A query document has none of the known forms. -/
  | unknownForm
  /-- A query names an operator that does not exist. -/
  | unknownOperator
  /-- Clauses are to be combined in a way that does not exist. -/
  | unknownCombination
  /-- A query does not say what to compare with. -/
  | missingComparison
  /-- The sort keys or the projection have none of the known forms. -/
  | invalidOptions
  /-- No database has the given name. -/
  | unknownDatabase
deriving DecidableEq

namespace ErrorKind

/-- The code by which programs tell errors apart. -/
def code : ErrorKind → Text
  | failedQuery => "query_failed"
  | undecodableEntry => "log_decode_failed"
  | duplicateIdentity => "duplicate_id"
  | unknownForm => "unhandled_query_format"
  | unknownOperator => "unhandled_query_operator"
  | unknownCombination => "unhandled_set_operator"
  | missingComparison => "missing_comparison_value"
  | invalidOptions => "invalid_query_options"
  | unknownDatabase => "unknown_database"

/-- The name under which the last error is remembered. -/
def label : ErrorKind → Text
  | failedQuery => "QueryError"
  | undecodableEntry => "LogDecodeError"
  | duplicateIdentity => "DuplicateIdentity"
  | unknownForm => "UnhandledQueryFormat"
  | unknownOperator => "UnhandledQueryOperator"
  | unknownCombination => "UnhandledSetOperator"
  | missingComparison => "MissingComparisonValue"
  | invalidOptions => "InvalidQueryOptions"
  | unknownDatabase => "UnknownDatabase"

/-- The status of a response that reports the error. -/
def status : ErrorKind → Nat
  | undecodableEntry | duplicateIdentity => 422
  | unknownCombination => 500
  | unknownDatabase => 404
  | _ => 400

end ErrorKind

/-- An error of a query. -/
structure QueryError where
  kind : ErrorKind
  message : Text
  details : Members

namespace QueryError

/-- An error with the details that are not null. -/
def make (kind : ErrorKind) (message : Text) (details : Members) : QueryError :=
  ⟨kind, message, details.filter fun (_, v) => !v.isNull⟩

/-- The error with one more detail. -/
def withDetail (e : QueryError) (name : Text) (value : Json) : QueryError :=
  { e with details := e.details.set name value }

/-- A detail as a description shows it. -/
def describeDetail (detail : Text × Json) : Text :=
  detail.1 ++ "=" ++ detail.2.display

/-- The message, and the details in parentheses. -/
def describe (e : QueryError) : Text :=
  match e.details with
  | [] => e.message
  | details => e.message ++ " (" ++ joined ", " (details.map describeDetail) ++ ")"

/-- The report of an error that is printed or sent. -/
def report (e : QueryError) : Members :=
  let core : Members :=
    [("ok", .bool false), ("code", .str e.kind.code), ("error", .str e.message)]
  match e.details with
  | [] => core
  | details => Members.set core "details" (.obj details)

/-- A log entry that does not hold a record, by line. -/
def undecodableEntry (reason : Text) (line : Nat) : QueryError :=
  make .undecodableEntry reason [("line", .ofNat line)]

/-- The wording for a record whose identity occurred before. -/
def duplicateMessage : Text := "duplicate _id in record log"

/-- A record whose identity occurred before, by its place in the log. -/
def duplicateIdentity (id : Json) (position : Nat) : QueryError :=
  make .duplicateIdentity duplicateMessage
    [("record_id", id), ("position", .ofNat position)]

end QueryError

end RecordLog
