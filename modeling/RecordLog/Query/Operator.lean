import RecordLog.Failure
import RecordLog.Json.Compare

/-!
# Operators

A clause of a query compares the value of a field with an operand.  Three
operators compare with the operand itself, and one with each of the candidates
that it holds.  A comparison of values that have no order does not hold; it is no
failure.
-/

namespace RecordLog

/-- How a field is compared with an operand. -/
inductive Operator where
  | equal
  | greater
  | less
  | oneOf
deriving DecidableEq

namespace Operator

/-- All operators. -/
def all : List Operator := [equal, greater, less, oneOf]

/-- The symbol of an operator in a query. -/
def symbol : Operator → Text
  | equal => "$eq"
  | greater => "$gt"
  | less => "$lt"
  | oneOf => "$in"

/-- The operator that a symbol stands for. -/
def ofSymbol? (t : Text) : Option Operator :=
  all.find? fun op => op.symbol = t

/-- Whether the operand is a list of candidates. -/
def isMembership (op : Operator) : Bool :=
  op = oneOf

/-- The wording for something that is no operator. -/
def unknownMessage (name : Json) : Text :=
  "unhandled query operator: " ++ name.display

/-- The operator that a value names. -/
def ofJson (name : Json) : Except QueryError Operator :=
  let unknown := QueryError.make .unknownOperator (unknownMessage name) [("operator", name)]
  match name with
  | .str t =>
    match ofSymbol? t with
    | some op => .ok op
    | none => .error unknown
  | _ => .error unknown

/-- An operand, if the operator can take it: candidates come in a list. -/
def checkOperand (op : Operator) (operand : Json) : Except QueryError Json :=
  match op.isMembership, operand with
  | true, .arr _ => .ok operand
  | true, _ =>
    .error (.make .missingComparison (op.symbol ++ " expects a list of candidates")
      [("operator", .str op.symbol)])
  | false, _ => .ok operand

/-- The candidates that an operand holds: the items of an array, the letters of a
text, the keys of an object. -/
def candidates? : Json → Option (List Json)
  | .arr items => some items
  | .str t => some (t.map fun c => .str [c])
  | .obj members => some (members.map fun (k, _) => .str k)
  | _ => none

/-- Whether a field value compares with an operand as the operator says. -/
def holds (op : Operator) (value operand : Json) : Outcome Bool :=
  match op with
  | equal => .ok (value.strictEq operand)
  | greater => .ok (value.follows operand)
  | less => .ok (value.precedes operand)
  | oneOf =>
    match candidates? operand with
    | some candidates => .ok (candidates.any value.strictEq)
    | none => .error .unsuitable

/-- The same for an operator given by its symbol. -/
def holdsNamed (symbol : Text) (value operand : Json) : Outcome Bool :=
  match ofSymbol? symbol with
  | some op => op.holds value operand
  | none => .error (.query (.make .unknownOperator (unknownMessage (.str symbol)) []))

/-! ### Laws -/

/-- The symbol of an operator names it. -/
theorem ofSymbol?_symbol (op : Operator) : ofSymbol? op.symbol = some op := by
  cases op <;> decide +kernel

end Operator

end RecordLog
