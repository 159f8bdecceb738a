import RecordLog.Diagnostics.Line
import RecordLog.Settings.Section

/-!
# Levels of diagnostics

The settings say how much is to be seen, starting from one base level.  The parts
of this program are at the base, the names that are watched one step below, the
quiet ones one step above, and everything else two steps above; steps are ten
wide, and stop at the lowest and the highest named level.  Names that are debugged
are at the lowest level.

All of these settings are read with a default, in the order above, so setting the
levels completes the settings.
-/

namespace RecordLog

/-- The levels of the root and of names, as far as they were set. -/
structure LevelTable where
  root : Int
  named : List (Text × Int)

namespace LevelTable

/-- Whether a name means the root. -/
def isRootName (name : Text) : Bool :=
  name = [] || name = Text.ofString "root"

/-- The level of a name; zero if none was set. -/
def get (table : LevelTable) (name : Text) : Int :=
  if isRootName name then table.root else (table.named.lookup name).getD 0

/-- Sets the level of a name. -/
def set (table : LevelTable) (name : Text) (level : Int) : LevelTable :=
  if isRootName name then { table with root := level }
  else { table with named := (name, level) :: table.named }

/-- Sets the level of a name given by a value.  What counts as no means the root,
and anything else but a text is no name. -/
def setJson (table : LevelTable) (name : Json) (level : Int) : Outcome LevelTable :=
  match name with
  | .str t => .ok (table.set t level)
  | v => if v.truthy then .error .unsuitable else .ok { table with root := level }

/-- Sets the level of names one after the other. -/
def setAll (table : LevelTable) (names : List Json) (level : Int) : Outcome LevelTable :=
  names.foldlM (fun table name => table.setJson name level) table

/-- The names that a value lists: items, letters or keys. -/
def namesOf : Json → Outcome (List Json)
  | .arr items => .ok items
  | .str t => .ok (t.map fun c => .str [c])
  | .obj members => .ok ((Members.keys members).map .str)
  | _ => .error .unsuitable

end LevelTable

namespace Diagnostic

/-- The lowest level that steps lead to. -/
def lowestLevel : Int := 10

/-- The highest level that steps lead to. -/
def highestLevel : Int := 50

/-- The level where none is set. -/
def usualLevel : Text := "INFO"

/-- The capital letters of a code point, as far as names of levels are spelled with
them. -/
def capital (c : CodePoint) : Text :=
  if 0x61 ≤ c.val && c.val ≤ 0x7A then [CodePoint.ofNatOr (c.val - 0x20) c]
  else if c.val = 0x131 then "I"
  else if c.val = 0x17F then "S"
  else if c.val = 0xDF then "SS"
  else if c.val = 0xFB00 then "FF"
  else if c.val = 0xFB01 then "FI"
  else if c.val = 0xFB02 then "FL"
  else if c.val = 0xFB05 || c.val = 0xFB06 then "ST"
  else [c]

/-- The levels by the names they can be set with. -/
def settableLevels : List (Text × Int) :=
  [("NOTSET", 0), ("DEBUG", 10), ("INFO", 20), ("WARN", 30), ("WARNING", 30),
    ("ERROR", 40), ("CRITICAL", 50), ("FATAL", 50)]

/-- Names that are taken for something else than a level. -/
def reservedLevels : List Text := ["BASIC_FORMAT", "_STYLES"]

/-- The base level that a setting stands for. -/
def baseLevel (setting : Json) : Outcome Int :=
  let name : Text := setting.plain.flatMap capital
  if name.isOneOf reservedLevels then .error .unsuitable
  else .ok ((settableLevels.lookup name).getD 20)

/-- The level some steps away from a base. -/
def shifted (base steps : Int) : Int :=
  min highestLevel (max lowestLevel (base + 10 * steps))

/-- The names that are quiet where none are set. -/
def usualQuiet : List Text :=
  ["uvicorn", "uvicorn.access", "uvicorn.error", "fastapi", "httpx", "asyncio"]

/-- Sets the level of the names that a setting lists. -/
def setListed (s : Section) (path : Text) (usual : List Text) (level : Int)
    (table : LevelTable) : Outcome LevelTable × Section :=
  let (names, s) := s.readOr path (.arr (usual.map .str))
  match LevelTable.namesOf names with
  | .error e => (.error e, s)
  | .ok names => (table.setAll names level, s)

/-- Sets the levels of several settings that list names, up to the first failure. -/
def setEach (s : Section) (table : LevelTable) :
    List (Text × List Text × Int) → Outcome LevelTable × Section
  | [] => (.ok table, s)
  | (path, usual, level) :: later =>
    match setListed s path usual level table with
    | (.error e, s) => (.error e, s)
    | (.ok table, s) => setEach s table later

/-- Sets all levels from the settings. -/
def setLevels (s : Section) : Outcome LevelTable × Section :=
  let (level, s) := s.readOr "log.level" (.str usualLevel)
  match baseLevel level with
  | .error e => (.error e, s)
  | .ok base =>
    let (dev, s) := s.readOr "dev" (.int 0)
    let table : LevelTable :=
      ⟨shifted base 2, [(programName, if dev.truthy then lowestLevel else base)]⟩
    setEach s table
      [("log.debug", [], lowestLevel), ("log.watch", [], shifted base (-1)),
        ("log.quiet", usualQuiet, shifted base 1)]

end Diagnostic

end RecordLog
