import RecordLog.Failure

/-!
# Sections of settings

Settings are sections within sections: an object whose members are values or
again objects.  A setting is named by a dotted path, which is the list of keys
from the outermost section to the value, and so has at least one key.

Reading looks through sections only; whatever else stands on the way hides all
that could be below it.  Writing makes the sections on the way, in place of
whatever is not one.  Reading with a default writes the default where nothing
was, so that later readings agree.

`find_put_self` says that a written value is read back.

Settings are a tree: a section is part of one section only, and no two paths lead to the same
one.  So writing at a path is never seen at a path apart from it.
-/

namespace RecordLog

/-- A section of settings. -/
abbrev Section := Members

/-- The keys of a dotted path. -/
def dottedKeys (path : Text) : List Text :=
  splitOn (CodePoint.ofChar '.') path

namespace Section

/-- The section under a key; anything else reads as an empty one. -/
def under (s : Section) (key : Text) : Section :=
  match Members.get? s key with
  | some (.obj t) => t
  | _ => []

/-- The value at a path of keys; null if there is none. -/
def find : Section → List Text → Json
  | s, [] => .obj s
  | s, [key] => Members.getOrNull s key
  | s, key :: next :: keys =>
    match Members.get? s key with
    | some (.obj t) => find t (next :: keys)
    | _ => .null

/-- Puts a value at a path of keys. -/
def put : Section → List Text → Json → Section
  | s, [], _ => s
  | s, [key], value => Members.set s key value
  | s, key :: next :: keys, value =>
    Members.set s key (.obj (put (under s key) (next :: keys) value))

/-- The value at a dotted path; null if there is none. -/
def read (s : Section) (path : Text) : Json :=
  find s (dottedKeys path)

/-- Puts a value at a dotted path. -/
def write (s : Section) (path : Text) (value : Json) : Section :=
  put s (dottedKeys path) value

/-- The value at a dotted path, or else a default, which is then put there.  A
default of null is the same as none. -/
def readOr (s : Section) (path : Text) (default : Json) : Json × Section :=
  let value := s.read path
  if value.isNull && !default.isNull then (default, s.write path default) else (value, s)

/-- The section that a value makes: an object, or something empty. -/
def ofJson : Json → Outcome Section
  | .obj members => .ok members
  | .arr [] => .ok []
  | .str [] => .ok []
  | .str _ => .error .malformed
  | _ => .error .unsuitable

/-! ### Laws -/

/-- A value written along a non-empty path is found along that path. -/
theorem find_put_self (s : Section) {keys : List Text} (h : keys ≠ []) (value : Json) :
    (put s keys value).find keys = value := by
  induction keys generalizing s with
  | nil => exact absurd rfl h
  | cons key keys ih =>
    cases keys with
    | nil => simp [put, find, Members.getOrNull, Members.get?_set_self]
    | cons next keys => simpa [put, find, Members.get?_set_self] using ih (under s key) (by simp)

end Section

end RecordLog
