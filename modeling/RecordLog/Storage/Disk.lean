import RecordLog.Failure
import RecordLog.Text.Utf8

/-!
# Disks

A disk is a value: the nodes there are, by their place below the root directory,
and the place of the working directory.  Names are resolved from left to right;
double dots lead to the directory above, and every name that is walked through
must be a directory.

Not everything on a disk can be opened: a permission may be denied, or links may lead
around.  Such a node is `barred`, and whatever is asked of it ends with its fault.  Only
whether it is a file may be known all the same.  And before it looks at the disk, the
system refuses a path that it cannot be given, or that is too long; a name that is too
long it refuses where it comes to it.

Logs are read whole, so reading a file gives all its content.  Writing replaces
the content, and appending keeps it; both make the file when the directory above
it is there.
-/

namespace RecordLog

/-- A place on a disk: names from the root directory down. -/
abbrev Place := List Text

/-- What stands at a place. -/
inductive Node where
  | folder
  | file (content : Octets)
  /-- Something that cannot be opened, or walked through, for a fault.  Whether it is a file
  may be known. -/
  | barred (fault : StorageFault) (isFile : Option Bool)
deriving DecidableEq

/-- All nodes of a disk, and the working directory. -/
structure Disk where
  nodes : List (Place × Node)
  here : Place

namespace Disk

/-- The node at a place.  The root directory is always there. -/
def node? (d : Disk) (place : Place) : Option Node :=
  if place = [] then some .folder else d.nodes.lookup place

/-- A name with more octets than this is too long. -/
def nameLimit : Nat := 255

/-- A path with more octets than this is too long. -/
def pathLimit : Nat := 4095

/-- What the system says of a path, as it is written, without a look at the disk. -/
def refusal? (written : Text) (p : Path) : Option Failure :=
  if !written.isSystemText then some .malformed
  else if pathLimit < written.systemLength then some (.storage ⟨.tooLong, p⟩)
  else none

/-- Why there is no way through a node. -/
def passageFault? : Option Node → Option StorageFault
  | some .folder => none
  | some (.file _) | some (.barred _ (some true)) => some .notFolder
  | some (.barred fault _) => some fault
  | none => some .missing

/-- Walks down names from a place. -/
def walk (d : Disk) : Place → List Text → Except StorageFault Place
  | place, [] => .ok place
  | place, name :: names =>
    match passageFault? (d.node? place) with
    | some fault => .error fault
    | none =>
      if nameLimit < name.systemLength then .error .tooLong
      else walk d (if name = Text.ofString ".." then place.dropLast else place ++ [name]) names

/-- The place that a path names, whether or not anything is there. -/
def locate (d : Disk) (p : Path) : Outcome Place :=
  match refusal? p.render p with
  | some failure => .error failure
  | none =>
    match d.walk (if p.root = .here then d.here else []) p.names with
    | .ok place => .ok place
    | .error fault => .error (.storage ⟨fault, p⟩)

/-- The node that a path names. -/
def find (d : Disk) (p : Path) : Outcome Node :=
  match d.locate p with
  | .error failure => .error failure
  | .ok place =>
    match d.node? place with
    | some node => .ok node
    | none => .error (.storage ⟨.missing, p⟩)

/-- The content of a file. -/
def read (d : Disk) (p : Path) : Outcome Octets :=
  match d.find p with
  | .ok (.file content) => .ok content
  | .ok .folder => .error (.storage ⟨.isFolder, p⟩)
  | .ok (.barred fault _) => .error (.storage ⟨fault, p⟩)
  | .error failure => .error failure

/-- What a failure says about whether a file is there.  What the system cannot be given is no
file, and neither is what it does not find; any other fault is one here, too. -/
def unseen : Failure → Outcome Bool
  | .storage e => if e.fault.isUnseen then .ok false else .error (.storage e)
  | _ => .ok false

/-- Whether a path names a file. -/
def isFile (d : Disk) (p : Path) : Outcome Bool :=
  match d.find p with
  | .ok (.file _) => .ok true
  | .ok .folder => .ok false
  | .ok (.barred fault isFile) =>
    match isFile with
    | some known => .ok known
    | none => unseen (.storage ⟨fault, p⟩)
  | .error failure => unseen failure

/-- Whether what a path names may be read. -/
def isReadable (d : Disk) (p : Path) : Outcome Bool :=
  match d.find p with
  | .ok (.barred _ _) => .ok false
  | .ok _ => .ok true
  | .error (.storage _) => .ok false
  | .error failure => .error failure

/-- Puts a node at a place, in place of what is there. -/
def put (d : Disk) (place : Place) (node : Node) : Disk :=
  { d with nodes := (place, node) :: d.nodes.filter (·.1 != place) }

/-- Puts directories at the beginnings of `base ++ names` that are longer than
`base`, where nothing stands yet. -/
def makeFolders (d : Disk) (base : Place) : List Text → Disk
  | [] => d
  | name :: names =>
    let place := base ++ [name]
    let d := if (d.node? place).isSome then d else d.put place .folder
    d.makeFolders place names

/-- A disk on which nothing is but its working directory. -/
def bare (here : Place) : Disk :=
  (Disk.mk [] here).makeFolders [] here

/-- Puts a node where a path leads from a place, and a directory wherever it leads
through. -/
def plantFrom (d : Disk) (place : Place) (node : Node) : List Text → Disk
  | [] => d.put place node
  | name :: names =>
    let d := if (d.node? place).isSome then d else d.put place .folder
    d.plantFrom (if name = Text.ofString ".." then place.dropLast else place ++ [name]) node names

/-- Puts a node at a path. -/
def plant (d : Disk) (p : Path) (node : Node) : Disk :=
  d.plantFrom (if p.root = .here then d.here else []) node p.names

/-- The place at which a file can be written. -/
def locateForWriting (d : Disk) (p : Path) : Outcome Place :=
  match d.locate p with
  | .error failure => .error failure
  | .ok place =>
    match d.node? place with
    | some .folder => .error (.storage ⟨.isFolder, p⟩)
    | some (.barred fault _) => .error (.storage ⟨fault, p⟩)
    | _ =>
      match passageFault? (d.node? place.dropLast) with
      | some fault => .error (.storage ⟨fault, p⟩)
      | none => .ok place

/-- The content of the file at a place; nothing if there is none. -/
def contentAt (d : Disk) (place : Place) : Octets :=
  match d.node? place with
  | some (.file content) => content
  | _ => []

/-- Gives a file new content. -/
def write (d : Disk) (p : Path) (content : Octets) : Outcome Disk :=
  (d.locateForWriting p).map fun place => d.put place (.file content)

/-- Adds to the content of a file. -/
def append (d : Disk) (p : Path) (content : Octets) : Outcome Disk :=
  (d.locateForWriting p).map fun place =>
    d.put place (.file (d.contentAt place ++ content))

/-- Removes a file. -/
def remove (d : Disk) (p : Path) : Outcome Disk :=
  match d.locate p with
  | .error failure => .error failure
  | .ok place =>
    match d.node? place with
    | some .folder => .error (.storage ⟨.isFolder, p⟩)
    | some _ => .ok { d with nodes := d.nodes.filter (·.1 != place) }
    | none => .error (.storage ⟨.missing, p⟩)

/-! ### Laws -/

/-- A path is located, or there is a fault on the way, or the system cannot be given the path. -/
theorem locate_cases (d : Disk) (p : Path) :
    (∃ place, d.locate p = .ok place) ∨ (∃ fault, d.locate p = .error (.storage ⟨fault, p⟩)) ∨
      p.render.isSystemText = false ∧ d.locate p = .error .malformed := by
  rw [locate, refusal?]
  cases hsystem : p.render.isSystemText with
  | false => exact .inr (.inr ⟨rfl, rfl⟩)
  | true =>
      rw [Bool.not_true, if_neg Bool.false_ne_true]
      split
      · next failure hlong =>
          split at hlong
          · exact .inr (.inl ⟨.tooLong, by rw [← Option.some.inj hlong]⟩)
          · cases hlong
      · split
        · exact .inl ⟨_, rfl⟩
        · exact .inr (.inl ⟨_, rfl⟩)

/-- A file is read, or there is a fault, or the system cannot be given the path. -/
theorem read_cases (d : Disk) (p : Path) :
    (∃ content, d.read p = .ok content) ∨ (∃ fault, d.read p = .error (.storage ⟨fault, p⟩)) ∨
      p.render.isSystemText = false ∧ d.read p = .error .malformed := by
  rw [read, find]
  rcases d.locate_cases p with ⟨place, hplace⟩ | ⟨fault, hfault⟩ | ⟨hsystem, hrefused⟩
  · rw [hplace]
    dsimp only
    cases d.node? place with
    | none => exact .inr (.inl ⟨_, rfl⟩)
    | some node =>
        cases node with
        | file content => exact .inl ⟨content, rfl⟩
        | folder | barred => exact .inr (.inl ⟨_, rfl⟩)
  · rw [hfault]
    exact .inr (.inl ⟨fault, rfl⟩)
  · rw [hrefused]
    exact .inr (.inr ⟨hsystem, rfl⟩)

/-- Reading does not fail for a reason of the query or the log. -/
theorem read_ne_query (d : Disk) (p : Path) (e : QueryError) : d.read p ≠ .error (.query e) := by
  rcases d.read_cases p with ⟨content, hread⟩ | ⟨fault, hread⟩ | ⟨_, hread⟩
  all_goals
    rw [hread]
    exact nofun

/-- What can be read is a file. -/
theorem isFile_of_read {d : Disk} {p : Path} {content : Octets} (h : d.read p = .ok content) :
    d.isFile p = .ok true := by
  rw [read] at h
  rw [isFile]
  split at h
  · rfl
  all_goals cases h

end Disk

end RecordLog
