import RecordLog.Platform
import RecordLog.Settings.Merge
import RecordLog.Settings.Reference
import RecordLog.Storage.Disk

/-!
# Layers of settings

Settings come in three layers: built-in ones, a file over them, and the
environment over both.  The file is one document of YAML in UTF-8 with references to
variables; a file that is not there, or a document that counts as no, adds
nothing.
-/

namespace RecordLog

/-- The built-in settings. -/
def Section.builtIn : Section :=
  [("data_dir", .str "./data"),
    ("databases", .obj []),
    ("query", .obj [("strict_ids", .bool false)]),
    ("log", .obj [("level", .str "INFO"), ("ops", .null)]),
    ("server", .obj [("host", .str "127.0.0.1"), ("port", .int 8087)])]

namespace Settings

/-- The file of settings where nothing names one. -/
def usualFile : Text := "./config.yml"

/-- The file of settings: a given path, or else the one that the environment
names, or else the usual one. -/
def filePath (env : Environment) (given : Option Text) : Path :=
  Path.ofText
    (match given with
      | some (c :: path) => c :: path
      | _ => (env.get? settingsFileVariable).getD usualFile)

/-- A document as a layer: expanded, unless it counts as no. -/
def layerOf (env : Environment) (document : Json) : Json :=
  if document.truthy then document.expanded env else .obj []

/-- The layer of a file. -/
def fileLayer (platform : Platform) (disk : Disk) (path : Path) : Outcome Json :=
  match disk.isFile path with
  | .error e => .error e
  | .ok false => .ok (.obj [])
  | .ok true =>
    match disk.read path with
    | .error e => .error e
    | .ok content => (platform.readDocument content).map (layerOf platform.environment)

/-- The built-in settings under a document and under the environment. -/
def layered (env : Environment) (layer : Json) : Outcome Section :=
  match Section.mergeDocument Section.builtIn layer with
  | .error e => .error e
  | .ok s => (Section.ofEnvironment env).map s.merge

/-- All layers of settings. -/
def load (platform : Platform) (disk : Disk) (given : Option Text) : Outcome Section :=
  match fileLayer platform disk (filePath platform.environment given) with
  | .error e => .error e
  | .ok layer => layered platform.environment layer

/-- Settings that are given as a value, or else all layers. -/
def ofJsonOrLoad (platform : Platform) (disk : Disk) (data : Json) (given : Option Text) :
    Outcome Section :=
  if data.isNull then load platform disk given else Section.ofJson data

end Settings

end RecordLog
