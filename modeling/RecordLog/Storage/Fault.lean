import RecordLog.Storage.Path
import RecordLog.Text.Quoted

/-!
# Faults of storage

When a path cannot be opened, the system says why.  Three reasons are told apart by
whoever is told: nothing is there, the way leads through something that is no
directory, or a directory is there.  Every other reason, such as a permission that is
denied or a loop of links, has the number, the class and the wording that the system
gives it.
-/

namespace RecordLog

/-- Why a path cannot be opened. -/
inductive StorageFault where
  | missing
  | notFolder
  | isFolder
  /-- Any other reason, by its number, the name of its class and its wording. -/
  | other (number : Nat) (label wording : Text)
deriving DecidableEq

namespace StorageFault

/-- A name, or a whole path, has too many octets. -/
def tooLong : StorageFault := .other 36 "OSError" "File name too long"

/-- The number of a fault. -/
def number : StorageFault → Nat
  | .missing => 2
  | .notFolder => 20
  | .isFolder => 21
  | .other number _ _ => number

/-- The name of the class of a fault. -/
def label : StorageFault → Text
  | .missing => "FileNotFoundError"
  | .notFolder => "NotADirectoryError"
  | .isFolder => "IsADirectoryError"
  | .other _ label _ => label

/-- The wording of a fault. -/
def wording : StorageFault → Text
  | .missing => "No such file or directory"
  | .notFolder => "Not a directory"
  | .isFolder => "Is a directory"
  | .other _ _ wording => wording

/-- The numbers of the faults that only mean that no file is there: nothing is, the
way leads through something else, a descriptor is bad, or links lead around. -/
def unseenNumbers : List Nat := [2, 20, 9, 40]

/-- Whether a fault only means that no file is there. -/
def isUnseen (fault : StorageFault) : Bool :=
  fault.number ∈ unseenNumbers

end StorageFault

/-- A path that cannot be opened, as it was given. -/
structure StorageError where
  fault : StorageFault
  path : Path
deriving DecidableEq

namespace StorageError

/-- The name under which the last error is remembered. -/
def label (e : StorageError) : Text :=
  e.fault.label

/-- The number and the wording of an error, and the path. -/
def describe (e : StorageError) : Text :=
  Text.ofString "[Errno " ++ Text.ofNat e.fault.number ++ Text.ofString "] " ++ e.fault.wording ++
    ": " ++ Text.quoted e.path.render

end StorageError

end RecordLog
