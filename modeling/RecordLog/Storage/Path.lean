import RecordLog.Text
import RecordLog.Split

/-!
# Paths

A path is a root, or none, and names below it.  Reading a path drops empty names
and single dots; double dots stay, since what they mean depends on the disk.  Two
slashes at the front, and not three, are a root of their own.

The system takes a path as octets that end in a zero.  So a text with a zero in it is
no path for the system, whatever is on the disk, and neither is one with a lone
surrogate, unless it stands for an octet that is not UTF-8.
-/

namespace RecordLog

/-! ### Texts for the system -/

/-- Whether a code point stands for an octet that is not UTF-8. -/
def CodePoint.isEscape (c : CodePoint) : Bool :=
  0xDC80 ≤ c.val && c.val ≤ 0xDCFF

/-- Whether the system can be given a text, as a path or as a name. -/
def Text.isSystemText (t : Text) : Bool :=
  t.all fun c => c.val != 0 && (!c.isSurrogate || c.isEscape)

/-- How many octets the system is given for a code point. -/
def CodePoint.systemLength (c : CodePoint) : Nat :=
  if c.val < 0x80 || c.isEscape then 1
  else if c.val < 0x800 then 2
  else if c.val < 0x10000 then 3
  else 4

/-- How many octets the system is given for a text. -/
def Text.systemLength (t : Text) : Nat :=
  t.foldr (fun c n => c.systemLength + n) 0

/-! ### Paths -/

/-- Where a path starts. -/
inductive Root where
  /-- In the working directory. -/
  | here
  /-- At the root directory. -/
  | slash
  /-- At the root directory, written with two slashes. -/
  | doubleSlash
deriving DecidableEq

/-- A path of names. -/
structure Path where
  root : Root
  names : List Text
deriving DecidableEq

namespace Path

/-- The root of a text that is read as a path. -/
def rootOf (t : Text) : Root :=
  match t.takeWhile (· = CodePoint.ofChar '/') with
  | [] => .here
  | [_, _] => .doubleSlash
  | _ => .slash

/-- Whether a part between slashes is a name. -/
def isName (part : Text) : Bool :=
  part != [] && part != Text.ofString "."

/-- Reads a path. -/
def ofText (t : Text) : Path :=
  ⟨rootOf t, (splitOn (CodePoint.ofChar '/') t).filter isName⟩

/-- How a root is written. -/
def rootText : Root → Text
  | .here => []
  | .slash => "/"
  | .doubleSlash => "//"

/-- Writes a path; the working directory itself is a dot. -/
def render (p : Path) : Text :=
  match p.root, p.names with
  | .here, [] => "."
  | root, names => rootText root ++ joined "/" names

/-- Whether a path starts at a root. -/
def isAbsolute (p : Path) : Bool :=
  p.root != .here

/-- A path taken from inside another one; an absolute path stays as it is. -/
def append (base p : Path) : Path :=
  if p.isAbsolute then p else ⟨base.root, base.names ++ p.names⟩

end Path

end RecordLog
