import RecordLog.CommandLine.Command
import RecordLog.Settings.Layers
import RecordLog.Service

/-!
# Running a command line

A command line that can be followed ends with status 0 and prints what was found,
or ends with status 1 and prints why nothing was: an error of the query or the log,
or a file that is not there.  One that cannot be followed ends with status 2 and
prints nothing.  All other failures stop the program, and so does a line that standard
output cannot take; the lines before it are printed then.

A file of settings that the command line names replaces all settings, and they
stay replaced for later command lines of the same run.
-/

namespace RecordLog.CommandLine

/-- What running a command line leads to: its exit status, or why it stopped, and
what it printed. -/
structure Ending where
  status : Outcome Nat
  printed : Text

/-- A line as it is printed. -/
def ended (line : Text) : Text :=
  line ++ Text.ofString "\n"

namespace Ending

/-- Lines printed one after the other, up to the first that output cannot take, and then a
status. -/
def printingLines (platform : Platform) (status : Nat) : List Text → Ending
  | [] => ⟨.ok status, []⟩
  | line :: later =>
    if platform.prints line then
      let ending := printingLines platform status later
      { ending with printed := ended line ++ ending.printed }
    else ⟨.error .unprintable, []⟩

/-- A line of JSON printed with a status. -/
def printing (platform : Platform) (status : Nat) (style : Json.Style) (members : Members) :
    Ending :=
  printingLines platform status [Json.write style (.obj members)]

/-- The program was stopped. -/
def stopped (failure : Failure) : Ending := ⟨.error failure, []⟩

/-- The line about a file that is not there. -/
def missingFile (path : Path) : Members :=
  [("ok", .bool false), ("code", .str "database_file_missing"),
    ("error", .str (Text.ofString "no such file: " ++ path.render))]

/-- How a failure ends the program. -/
def ofFailure (platform : Platform) (failure : Failure) : Ending :=
  match failure with
  | .query e => printing platform 1 .unicode e.report
  | .storage e =>
    if e.fault = .missing then printing platform 1 .unicode (missingFile e.path)
    else stopped failure
  | _ => stopped failure

/-- The end of a command line that cannot be followed. -/
def ofUsage : UsageFault → Ending
  | .help => ⟨.ok 0, []⟩
  | .unusable => ⟨.ok 2, []⟩

end Ending

/-- Whether members are given and are not empty. -/
def given (key : Text) : Option Members → Members
  | some (m :: ms) => [(key, .obj (m :: ms))]
  | _ => []

/-- The options of a find. -/
def Presentation.options (p : Presentation) : Json :=
  match given "sort" p.sort ++ given "projection" p.projection with
  | [] => .null
  | members => .obj members

/-- The lines that say what was found. -/
def foundLines (lines : Bool) (found : List Record) : List Text :=
  if lines then found.map fun r => Json.write .unicode (.obj r)
  else [Json.write .unicode (.obj (("ok", .bool true) :: Service.findReport found))]

/-- The printed form of what was found. -/
def printFound (platform : Platform) (lines : Bool) (found : List Record) : Ending :=
  .printingLines platform 0 (foundLines lines found)

/-- Runs a command that finds records. -/
def runFind (platform : Platform) (disk : Disk) (s : Section) (f : FindCommand) :
    Ending × Section :=
  match Service.openDatabase s platform disk f.database true with
  | (.error failure, s) => (.ofFailure platform failure, s)
  | (.ok db, s) =>
    match (Service.find .zero (.new db) f.query f.presentation.options (db.readFrom disk)).1 with
    | .error failure => (.ofFailure platform failure, s)
    | .ok found => (printFound platform f.presentation.lines found, s)

/-- Runs a command. -/
def runCommand (platform : Platform) (disk : Disk) (s : Section) (command : Command) :
    Ending × Section :=
  match command with
  | .find f => runFind platform disk s f
  | .wordless => (.stopped .unsuitable, s)
  | .listDatabases =>
    match Service.databaseNames s with
    | .error failure => (.ofFailure platform failure, s)
    | .ok names =>
      (.printing platform 0 .ascii [("ok", .bool true), ("databases", .arr names)], s)

/-- The settings after a command line has named a file of settings. -/
def reload (platform : Platform) (disk : Disk) (s : Section) (settingsFile : Option Text) :
    Outcome Section :=
  match settingsFile with
  | some (c :: path) => Settings.load platform disk (some (c :: path))
  | _ => .ok s

/-- Runs a command line. -/
def run (platform : Platform) (disk : Disk) (s : Section) (argv : List Text) :
    Ending × Section :=
  match readInvocation none argv with
  | .error fault => (.ofUsage fault, s)
  | .ok invocation =>
    match reload platform disk s invocation.settingsFile with
    | .error failure => (.stopped failure, s)
    | .ok s => runCommand platform disk s invocation.command

/-! ### What a command line reads -/

/-- The files of settings that a command line may read. -/
def settingsPaths (platform : Platform) (argv : List Text) : List Path :=
  let named :=
    match readInvocation none argv with
    | .ok invocation => invocation.settingsFile.toList
    | .error _ => []
  let filePath := Settings.filePath platform.environment
  filePath none :: named.map fun file => filePath (some file)

/-- The logs that a command line may read. -/
def logPaths (platform : Platform) (disk : Disk) (s : Section) (argv : List Text) :
    List Path :=
  match readInvocation none argv with
  | .ok ⟨settingsFile, .find f⟩ =>
    match reload platform disk s settingsFile with
    | .error _ => []
    | .ok s =>
      match (s.database platform f.database).1 with
      | .ok (some entry) => [entry.database.path]
      | _ => [Path.ofText f.database]
  | _ => []

end RecordLog.CommandLine
