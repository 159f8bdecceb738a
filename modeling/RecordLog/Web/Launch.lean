import RecordLog.Web.Server
import RecordLog.Number.Numeral

/-!
# Launching the server

What a process needs to know to serve requests is taken from the section `server`
of the settings, each setting with a default that is then part of the settings.
Ports and numbers of workers may be given as text.
-/

namespace RecordLog

/-- How the server is launched. -/
structure Launch where
  host : Text
  port : Int
  reload : Bool
  workers : Int
  logLevel : Text

namespace Launch

/-- The name of the application that is served. -/
def application : Text := "loq.main:app"

/-- The name of the module that has the application. -/
def module : Text := "loq.main"

/-- The integer that a setting stands for; a fraction is cut off. -/
def wholeNumber : Json → Outcome Int
  | .int n => .ok n
  | .bool b => .ok (if b then 1 else 0)
  | .float x =>
    match x with
    | .nan => .error .malformed
    | .infinite _ => .error .overflow
    | x => .ok (x.truncated?.getD 0)
  | .str t =>
    match Numeral.toInt? t with
    | some n => .ok n
    | none => .error .malformed
  | _ => .error .unsuitable

/-- A whole number among the settings, with a default. -/
def readNumber (s : Section) (path : Text) (usual : Int) : Outcome Int × Section :=
  let (v, s) := s.readOr path (.int usual)
  (wholeNumber v, s)

/-- Takes from the settings how the server is launched. -/
def ofSettings (s : Section) : Outcome Launch × Section :=
  let (host, s) := s.readOr "server.host" (.str "127.0.0.1")
  match readNumber s "server.port" 8087 with
  | (.error e, s) => (.error e, s)
  | (.ok port, s) =>
    let (reload, s) := s.readOr "server.reload" (.bool false)
    match readNumber s "server.workers" 1 with
    | (.error e, s) => (.error e, s)
    | (.ok workers, s) =>
      let (logLevel, s) := s.readOr "server.log_level" (.str "info")
      (.ok ⟨host.plain, port, reload.truthy, workers, logLevel.plain⟩, s)

/-- A launch by the names of its parts. -/
def toMembers (l : Launch) : Members :=
  [("app", .str application), ("host", .str l.host), ("port", .int l.port),
    ("reload", .bool l.reload), ("workers", .int l.workers), ("log_level", .str l.logLevel)]

/-! ### What the module offers -/

/-- Something that the module offers under a name. -/
inductive Export where
  | text (t : Text)
  /-- The application, which is made when it is first asked for. -/
  | application
  | function

/-- What the module offers. -/
def exports : List (Text × Export) :=
  [("app", .application), ("build_app", .function), ("main_srv", .function),
    ("VERSION", .text version), ("TEXT_MARKER", .text Query.wordsKey),
    ("__name__", .text module)]

/-- What the module offers under a name. -/
def export? (name : Text) : Outcome Export :=
  match exports.lookup name with
  | some e => .ok e
  | none => .error .memberless

end Launch

end RecordLog
