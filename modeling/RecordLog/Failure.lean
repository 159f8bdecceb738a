import RecordLog.Error
import RecordLog.Storage.Fault

/-!
# Failures

All the ways in which an operation can end without a result.  Two of them are
expected and reported to callers: an error of the query or the log, and a path
that cannot be opened.  The others come from settings and documents that hold
values of a kind that nobody foresaw, or from what the system cannot be given; they
stop the operation.
-/

namespace RecordLog

/-- Why an operation has no result. -/
inductive Failure where
  /-- The query, its options or the log are at fault. -/
  | query (e : QueryError)
  /-- A file cannot be opened. -/
  | storage (e : StorageError)
  /-- The text fields of a database are neither a list nor a text. -/
  | textFields (database : Text) (value : Json)
  /-- A value is of a kind that the operation has no meaning for. -/
  | unsuitable
  /-- A member is asked of a value that has no members. -/
  | memberless
  /-- A member is asked for that is not there. -/
  | absent
  /-- A text, or a number, does not spell what it should: a value, or a name that the system
  can be given. -/
  | malformed
  /-- A number is too large for a double. -/
  | overflow
  /-- A file of settings is not YAML. -/
  | notYaml
  /-- Standard output cannot take a text. -/
  | unprintable

/-- The result of an operation that can fail. -/
abbrev Outcome (α : Type) := Except Failure α

/-- The double that a number or a boolean stands for. -/
def Json.toDouble : Json → Outcome Double
  | .bool b => .ok (if b then Double.one else Double.zero)
  | .float x => .ok x
  | .int n =>
    match Double.ofInt? n with
    | some x => .ok x
    | none => .error .overflow
  | _ => .error .unsuitable

namespace Failure

/-- The wording for text fields that are neither a list nor a text. -/
def textFieldsMessage (database : Text) (value : Json) : Text :=
  "databases." ++ database ++ ".text_fields must be a list or a string, got " ++ value.display

/-- How a reported failure is remembered; other failures are not. -/
def remembered? : Failure → Option Text
  | query e => some (e.kind.label ++ ": " ++ e.describe)
  | storage e => some (e.label ++ ": " ++ e.describe)
  | _ => none

end Failure

end RecordLog
