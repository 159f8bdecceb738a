import RecordLog.Error
import RecordLog.Json.Compare
import RecordLog.Text.Lowercase

/-!
# Query options

Options say how results are sorted and which fields of them are kept.  Sort keys
come as an object from fields to directions, or as a list of pairs; a projection
is a list of fields, or an object whose members with a value that counts as yes
name the fields.

A direction is the number 1 or -1, or one of the words below in letters of any
case.  A pair may be anything with two elements: an array, a text of two letters,
or an object with two members, of which the keys count.
-/

namespace RecordLog

/-- The direction of a sort key. -/
inductive Direction where
  | ascending
  | descending
deriving DecidableEq

/-- A field to sort by, and its direction. -/
structure SortKey where
  field : Text
  direction : Direction
deriving DecidableEq

/-- How results are sorted and which of their fields are kept. -/
structure QueryOptions where
  sort : List SortKey
  projection : Option (List Text)
deriving DecidableEq

namespace Direction

/-- The number of a direction. -/
def code : Direction → Int
  | ascending => 1
  | descending => -1

/-- The direction that has a number; everything but -1 is ascending. -/
def ofCode (n : Int) : Direction :=
  if n = -1 then descending else ascending

/-- The words for directions. -/
def words : List (Text × Direction) :=
  [("1", ascending), ("-1", descending),
    ("asc", ascending), ("ascending", ascending),
    ("desc", descending), ("descending", descending)]

/-- The direction with a numeric value. -/
def ofQuantity? (q : Quantity) : Option Direction :=
  if q = .ofInt 1 then some ascending
  else if q = .ofInt (-1) then some descending
  else none

/-- The direction that a value stands for. -/
def ofJson? : Json → Option Direction
  | .str t => words.lookup t.lowercase
  | .int n => ofQuantity? (.ofInt n)
  | .float x => ofQuantity? (.ofDouble x)
  | _ => none

end Direction

namespace QueryOptions

/-- No sorting, and all fields. -/
def asIs : QueryOptions := ⟨[], none⟩

/-- An error of the options that has no details. -/
def invalid (message : Text) : QueryError :=
  .make .invalidOptions message []

/-- The sort key of a field name, which may be any value, and a direction. -/
def readSortKey (name direction : Json) : Except QueryError SortKey :=
  match Direction.ofJson? direction with
  | some d => .ok ⟨name.plain, d⟩
  | none =>
    .error (.make .invalidOptions
      ("invalid sort direction for " ++ name.display ++ ": " ++ direction.display)
      [("field", name)])

/-- The two elements of a pair. -/
def pair? : Json → Option (Json × Json)
  | .arr [a, b] => some (a, b)
  | .str [a, b] => some (.str [a], .str [b])
  | .obj [(a, _), (b, _)] => some (.str a, .str b)
  | _ => none

/-- The sort keys of the members of an object. -/
def readSortMembers : Members → Except QueryError (List SortKey)
  | [] => .ok []
  | (field, direction) :: later =>
    match readSortKey (.str field) direction with
    | .error e => .error e
    | .ok key => (readSortMembers later).map (key :: ·)

/-- The sort keys of a list of pairs. -/
def readSortPairs : List Json → Except QueryError (List SortKey)
  | [] => .ok []
  | item :: later =>
    match pair? item with
    | none => .error (invalid "sort pairs must be [field, direction]")
    | some (name, direction) =>
      match readSortKey name direction with
      | .error e => .error e
      | .ok key => (readSortPairs later).map (key :: ·)

/-- Sort keys in any of their forms. -/
def readSort : Json → Except QueryError (List SortKey)
  | .null => .ok []
  | .obj members => readSortMembers members
  | .arr items => readSortPairs items
  | _ => .error (invalid "sort must be an object or a list of pairs")

/-- A projection in any of its forms. -/
def readProjection : Json → Except QueryError (Option (List Text))
  | .null => .ok none
  | .obj members => .ok (some ((members.filter fun (_, v) => v.truthy).map (·.1)))
  | .arr items => .ok (some (items.map Json.plain))
  | _ => .error (invalid "projection must be an object or a list of fields")

/-- The options that a value describes; null is no options. -/
def ofJson : Json → Except QueryError QueryOptions
  | .null => .ok asIs
  | .obj members =>
    match readSort (Members.getOrNull members "sort") with
    | .error e => .error e
    | .ok sort =>
      match readProjection (Members.getOrNull members "projection") with
      | .error e => .error e
      | .ok projection => .ok ⟨sort, projection⟩
  | _ => .error (invalid "options must be an object")

end QueryOptions

end RecordLog
