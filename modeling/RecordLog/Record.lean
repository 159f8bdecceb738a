import RecordLog.Error
import RecordLog.Json.Compare

/-!
# Records

A record is the members of a JSON object.  Its identity decides when two records
are one for unions and intersections, and for the check that a log holds no
record twice.

Identities keep kinds apart that equality might mix: a boolean is never a number,
and a text is never the written form of an array.  Numbers are identified by
value, so `1` and `1.0` are one identity, and NaN is one identity.  Arrays and
objects are identified by their canonical written form.
-/

namespace RecordLog

/-- A record of a log. -/
abbrev Record := Members

/-- What makes two records one. -/
inductive Identity where
  | absent
  | flag (b : Bool)
  | number (q : Quantity)
  | text (t : Text)
  | composite (written : Text)
deriving DecidableEq

namespace Record

/-- The field that identifies a record. -/
def idField : Text := "_id"

/-- The value of the identifying field; a missing one reads as null. -/
def id (r : Record) : Json :=
  Members.getOrNull r idField

end Record

/-- The identity that a value gives. -/
def Identity.ofJson (v : Json) : Identity :=
  match v with
  | .null => .absent
  | .bool b => .flag b
  | .int n => .number (.ofInt n)
  | .float x => .number (.ofDouble x)
  | .str t => .text t
  | .arr _ => .composite (v.write .canonical)
  | .obj _ => .composite (v.write .canonical)

namespace Record

/-- The identity of a record. -/
def identity (r : Record) : Identity :=
  Identity.ofJson (id r)

/-- The first record whose identity is among `seen` or occurred before it, with
its position counted from `position`. -/
def firstRepeated? (seen : List Identity) (position : Nat) :
    List Record → Option (Record × Nat)
  | [] => none
  | r :: rs =>
    if identity r ∈ seen then some (r, position)
    else firstRepeated? (identity r :: seen) (position + 1) rs

/-- Refuses records of which two have one identity. -/
def checkDistinct (rs : List Record) : Except QueryError Unit :=
  match firstRepeated? [] 0 rs with
  | none => .ok ()
  | some (r, position) => .error (.duplicateIdentity (id r) position)

/-- The field names that occur in some record. -/
def knownFields (rs : List Record) : List Text :=
  (rs.flatMap Members.keys).eraseDups

/-- The record that has only the given fields, in their order, as far as the
record has them. -/
def project (r : Record) (fields : List Text) : Record :=
  fields.eraseDups.filterMap fun f => (Members.get? r f).map (f, ·)

end Record

end RecordLog
