import RecordLog.Settings.Section

/-!
# Views of settings

A view is a section inside the settings, reached by the names of its keys.  It
shows what the settings hold at the time, and what is written through it is
written to the settings.  Names that begin with an underscore are reserved, the
names of operations on settings reach the operation and not a value, and only a
section has members.
-/

namespace RecordLog.Section

/-- Whether a name is reserved. -/
def isReserved (name : Text) : Bool :=
  name.head? = some (CodePoint.ofChar '_')

/-- The names of the operations on settings. -/
def operationNames : List Text :=
  ["load", "get", "set", "as_dict", "snapshot", "replace", "database_names", "database",
    "iter_databases"]

/-- The value that a chain of names reaches from a value. -/
def follow : Json → List Text → Outcome Json
  | v, [] => .ok v
  | .obj members, name :: names =>
    if isReserved name then .error .memberless
    else if name.isOneOf operationNames then
      .error (if names = [] then .unsuitable else .memberless)
    else follow (Members.getOrNull members name) names
  | _, _ :: _ => .error .memberless

/-- The section that a chain of names reaches. -/
def viewAt (s : Section) (names : List Text) : Outcome Section :=
  match follow (.obj s) names with
  | .ok (.obj members) => .ok members
  | _ => .error .memberless

/-- The settings with a section in place of the one that a chain of names
reaches. -/
def replaceAt (s : Section) (names : List Text) (view : Section) : Section :=
  match names with
  | [] => view
  | _ :: _ => put s names (.obj view)

/-- Reads a dotted path, with a default, in a view. -/
def readOrIn (s : Section) (names : List Text) (path : Text) (default : Json) :
    Outcome Json × Section :=
  match viewAt s names with
  | .error e => (.error e, s)
  | .ok view =>
    let (value, view) := readOr view path default
    (.ok value, replaceAt s names view)

/-- Writes a dotted path in a view. -/
def writeIn (s : Section) (names : List Text) (path : Text) (value : Json) :
    Outcome Unit × Section :=
  match viewAt s names with
  | .error e => (.error e, s)
  | .ok view => (.ok (), replaceAt s names (view.write path value))

end RecordLog.Section
