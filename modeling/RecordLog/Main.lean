import RecordLog.CommandLine.Run

/-!
# The program

The program follows one command line.  It takes the environment as it is, reads the
files that the command line may read, and leaves everything else to
`CommandLine.run`.

Its platform is a plain one: of YAML it reads what is JSON, it knows no home directory but
that of the environment, and standard output takes what UTF-8 can encode.
-/

namespace RecordLog.Program

/-- The variable that a piece of an environment block sets. -/
def assignment? (piece : Octets) : Option (Text × Text) :=
  match Text.decodeUtf8 piece with
  | .ok t => Text.cutAt? '=' t
  | .error _ => none

/-- The variables of this process. -/
def readEnvironment : IO Environment := do
  let .ok block ← (IO.FS.readBinFile "/proc/self/environ").toBaseIO | return []
  return (splitOn 0 block.toList).filterMap assignment?

/-- The platform of this process. -/
def readPlatform : IO Platform := do
  return {
    environment := ← readEnvironment
    ownHome := none
    homeOf := fun _ => none
    readYaml := fun t => (Json.read t).toOption
    prints := fun t => !t.hasSurrogate }

/-- The working directory. -/
def readPlace : IO Place := do
  return (Path.ofText (Text.ofString (← IO.currentDir).toString)).names

/-- What stands where a file cannot be read. -/
def nodeOf : IO.Error → Option Node
  | .noFileOrDirectory _ _ _ => none
  | .permissionDenied _ code details =>
    some (.barred (.other code.toNat "PermissionError" details) (some true))
  | _ => some .folder

/-- A disk with what stands at a path. -/
def readPath (disk : Disk) (p : Path) : IO Disk := do
  match ← (IO.FS.readBinFile p.render.toString).toBaseIO with
  | .ok content => return disk.plant p (.file content.toList)
  | .error e => return ((nodeOf e).map (disk.plant p)).getD disk

/-- Says that the program was stopped. -/
def sayStopped : IO UInt32 := do
  IO.eprintln "stopped"
  return 1

/-- Follows a command line. -/
def follow (args : List String) : IO UInt32 := do
  let platform ← readPlatform
  let argv := args.map Text.ofString
  let disk ← (CommandLine.settingsPaths platform argv).foldlM readPath (Disk.bare (← readPlace))
  let .ok settings := Settings.load platform disk none | sayStopped
  let disk ← (CommandLine.logPaths platform disk settings argv).foldlM readPath disk
  let (ending, _) := CommandLine.run platform disk settings argv
  IO.print ending.printed.toString
  match ending.status with
  | .ok status => return status.toUInt32
  | .error _ => sayStopped

end RecordLog.Program

/-- Follows the command line that the program was started with. -/
def main (args : List String) : IO UInt32 :=
  RecordLog.Program.follow args
