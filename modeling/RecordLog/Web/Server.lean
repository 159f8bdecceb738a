import RecordLog.Events.Operation
import RecordLog.Service
import RecordLog.Web.Address
import RecordLog.Web.Reply

/-!
# The server

The server answers requests about the service.  It has reports on health, the
metrics in two forms, a list of the configured databases, and two ways to find
records: by a query document, and by words.  A find is one line in the event
stream, whatever comes of it; a request that is refused before that has none.

An error of the query or the log is reported with its own status, a log that is
not there with 404.  After every other failure the reply is only that the server
failed.
-/

namespace RecordLog

/-- The version of the program. -/
def version : Text := "0.2.1"

/-- What a clock shows during a request. -/
structure Moment where
  /-- The time, as events show it. -/
  time : Text
  /-- How many milliseconds the request takes. -/
  latency : Json
  /-- How many seconds the service has been running. -/
  uptime : Double

/-- A request. -/
structure Request where
  method : Text
  address : Address
  body : Octets

/-- A server: what it is configured with, and all that its requests change. -/
structure Server where
  platform : Platform
  framework : Framework
  settings : Section
  metrics : Metrics
  stream : EventStream
  disk : Disk

namespace Server

/-- A server that answers requests from now on; the settings say where its events
go. -/
def start (platform : Platform) (framework : Framework) (settings : Section) (disk : Disk) :
    Outcome Server :=
  let setting := settings.read "log.ops"
  let configured :=
    EventStream.off.configure disk (if setting.isNull then none else some setting.plain)
  match configured.active with
  | .error e => .error e
  | .ok _ => .ok ⟨platform, framework, settings, .zero, configured.stream, configured.disk⟩

/-- What a request leads to: the reply, the server afterwards, and the lines on
standard output. -/
structure Response where
  reply : Reply
  server : Server
  printed : List Text

/-- A reply without a line on standard output. -/
def silent (server : Server) (reply : Reply) : Response :=
  ⟨reply, server, []⟩

/-- Counts a request. -/
def countRequest (server : Server) : Server :=
  { server with metrics := server.metrics.count "requests_total" }

/-- Whether a log that is not there is the reason for a failure. -/
def missingPath? : Failure → Option Path
  | .storage e => if e.fault = .missing then some e.path else none
  | _ => none

/-- The reply after a failure. -/
def replyTo (framework : Framework) (failure : Failure) : Reply :=
  match failure with
  | .query e => framework.ofError e
  | failure =>
    match missingPath? failure with
    | some path =>
      framework.errorReply 404 "database_file_missing" "database file not found"
        [("path", .str path.render)]
    | none => .failed

/-! ### Operations with events -/

/-- The code that an event shows for a failure. -/
def failureCode : Failure → Json
  | .query e => .str e.kind.code
  | _ => .null

/-- How events look at what the handlers of the server return and at their failures. -/
def inspector : Inspector Members Failure :=
  ⟨fun members => .value (.obj members), failureCode, id⟩

/-- Writes the event of an operation, and then replies with what it returned. -/
def report (server : Server) (moment : Moment) (op : Operation) (model : ResponseModel)
    (arguments : Members) (result : Outcome Members) : Response :=
  let emit (fields : Members) : StateM (Disk × List Text) Unit :=
    modify fun (disk, printed) =>
      let (lines, disk) := server.stream.emit disk moment.time fields
      (disk, printed ++ lines)
  let call : StateM (Disk × List Text) (Outcome Members) :=
    op.call inspector arguments (return ()) (fun _ _ => moment.latency) emit (return result)
  let (outcome, disk, printed) := call.run (server.disk, [])
  let reply :=
    match outcome with
    | .ok members => server.framework.reply 200 model members
    | .error failure => replyTo server.framework failure
  ⟨reply, { server with disk }, printed⟩

/-- The additional field of the events of finds: how many records matched. -/
def hits : List (Text × EventSource) := [("hits", .member "count")]

/-- The operation to find records by a query document. -/
def findOperation : Operation := ⟨"find", some "name", hits⟩

/-- The operation to find records by words. -/
def searchOperation : Operation := ⟨"search", some "name", hits⟩

/-- The operation to list the databases. -/
def listOperation : Operation := ⟨"list_databases", none, []⟩

/-- What a find replies. -/
def findReply (name : Text) (moment : Moment) (found : List Record) : Members :=
  Members.setAll (Service.findReport found)
    [("database", .str name), ("latency_ms", moment.latency)]

/-- Finds records in a configured database. -/
def find (server : Server) (moment : Moment) (name : Text) (query options : Json) :
    Outcome Members × Server :=
  match Service.openDatabase server.settings server.platform server.disk name false with
  | (.error failure, settings) => (.error failure, { server with settings })
  | (.ok db, settings) =>
    let (result, metrics) :=
      Service.find server.metrics (.new db) query options (db.readFrom server.disk)
    (result.map fun found => findReply name moment found,
      { server with settings, metrics })

/-- Finds records and reports on it. -/
def runFind (server : Server) (moment : Moment) (op : Operation) (name : Text)
    (query options : Json) : Response :=
  let (result, server) := (countRequest server).find moment name query options
  server.report moment op .found [("name", .str name)] result

/-- Answers a request to find records by a query document. -/
def answerFind (server : Server) (moment : Moment) (name : Text) (body : Octets) : Response :=
  match server.framework.receive body with
  | .error refusal => silent server (server.framework.refuse refusal)
  | .ok request =>
    server.runFind moment findOperation name (.obj request.query) request.options

/-- Answers a request to find records by words. -/
def answerSearch (server : Server) (moment : Moment) (name : Text) (address : Address) :
    Response :=
  match address.value? "q" with
  | none => silent server (server.framework.invalidRequest (server.framework.lacking "q"))
  | some phrase =>
    server.runFind moment searchOperation name (.obj [(Query.wordsKey, .str phrase)]) .null

/-- Answers a request for the list of databases. -/
def answerList (server : Server) (moment : Moment) : Response :=
  let server := server.countRequest
  server.report moment listOperation .databases []
    ((Service.databaseNames server.settings).map fun names => [("databases", .arr names)])

/-! ### Health -/

/-- The names of values that are texts. -/
def textNames : List Json → Outcome (List Text)
  | [] => .ok []
  | .str t :: later => (textNames later).map (t :: ·)
  | .arr _ :: _ => .error .unsuitable
  | .obj _ :: _ => .error .unsuitable
  | _ :: _ => .error .memberless

/-- Which of the databases with names have a log that can be read, on top of what is known.
The first one that fails ends it. -/
def readableNamed (platform : Platform) (disk : Disk) :
    Section → Members → List Json → Outcome Members × Section
  | s, files, [] => (.ok files, s)
  | s, files, .str name :: names =>
    match s.database platform name with
    | (.error e, s) => (.error e, s)
    | (.ok none, s) => readableNamed platform disk s files names
    | (.ok (some entry), s) =>
      match disk.isReadable entry.database.path with
      | .error e => (.error e, s)
      | .ok readable =>
        readableNamed platform disk s (Members.set files entry.name (.bool readable)) names
  | s, _, _ :: _ => (.error .memberless, s)

/-- Which configured databases have a log that can be read.  Entries without a path
have none. -/
def readable (server : Server) : Outcome Members × Section :=
  match Service.databaseNames server.settings with
  | .error e => (.error e, server.settings)
  | .ok names =>
    match textNames names with
    | .error e => (.error e, server.settings)
    | .ok texts =>
      readableNamed server.platform server.disk server.settings
        (Members.ofList (texts.map (·, Json.bool false))) names

/-- Whether all of the databases can be read. -/
def allReadable (files : Members) : Bool :=
  files.all fun (_, v) => v.truthy

/-- Answers a request for what is ready. -/
def answerReady (server : Server) : Response :=
  let server := server.countRequest
  match server.readable with
  | (.error failure, settings) => silent { server with settings } (replyTo server.framework failure)
  | (.ok files, settings) =>
    let (dataDir, settings) := settings.readOr "data_dir" usualDataDir
    let ok := allReadable files
    silent { server with settings }
      (server.framework.reply (if ok then 200 else 503) .plain
        [("ok", .bool ok), ("data_dir", dataDir), ("databases", .obj files),
          ("version", .str version)])

/-- Answers a request for the state of health. -/
def answerHealth (server : Server) : Response :=
  let server := server.countRequest
  match server.readable with
  | (.error failure, settings) => silent { server with settings } (replyTo server.framework failure)
  | (.ok files, settings) =>
    let (_, settings) := settings.readOr "data_dir" usualDataDir
    let ok := allReadable files
    let word : Text := if ok then "ready" else "degraded"
    silent { server with settings }
      (server.framework.reply 200 .plain
        [("ok", .bool ok), ("status", .str word), ("version", .str version)])

/-- Answers a request whether the server is there. -/
def answerLive (server : Server) : Response :=
  silent server.countRequest
    (server.framework.reply 200 .plain
      [("ok", .bool true), ("status", .str "live"), ("version", .str version)])

/-- Answers a request for the metrics as JSON. -/
def answerMetrics (server : Server) (moment : Moment) : Response :=
  let server := server.countRequest
  match Service.databaseNames server.settings with
  | .error failure => silent server (replyTo server.framework failure)
  | .ok names =>
    match server.metrics.snapshot moment.uptime
        (.obj [("version", .str version), ("databases", .ofNat names.length)]) with
    | .error failure => silent server (replyTo server.framework failure)
    | .ok entries => silent server (server.framework.reply 200 .plain entries)

/-- Answers a request for the metrics in printed form. -/
def answerPrinted (server : Server) (moment : Moment) : Response :=
  let server := server.countRequest
  match server.metrics.print moment.uptime .null (.obj [("version", .str version)]) with
  | .error failure => silent server (replyTo server.framework failure)
  | .ok t => silent server ⟨200, .text t "text/plain; version=0.0.4; charset=utf-8"⟩

/-! ### Routes -/

/-- What can be asked for. -/
inductive Route where
  | health
  | live
  | ready
  | metrics
  | printedMetrics
  | databases
  | find (name : Text)
  | search (name : Text)
deriving DecidableEq

namespace Route

/-- The segments of a path after its first slash. -/
def segments (path : Text) : List Text :=
  (splitOn (CodePoint.ofChar '/') path).drop 1

/-- The routes with a fixed path. -/
def fixed : List (Text × Route) :=
  [("/health", health), ("/health/live", live), ("/health/ready", ready),
    ("/health/metrics", metrics), ("/metrics", printedMetrics), ("/databases", databases)]

/-- The route of a path. -/
def ofPath? (path : Text) : Option Route :=
  match fixed.lookup path with
  | some route => some route
  | none =>
    match segments path with
    | [first, name, last] =>
      if first = Text.ofString "databases" ∧ name ≠ [] then
        if last = Text.ofString "find" then some (find name)
        else if last = Text.ofString "search" then some (search name)
        else none
      else none
    | _ => none

/-- The method of a route. -/
def method : Route → Text
  | find _ => "POST"
  | _ => "GET"

/-- The route that a request is directed to: that of its path, or of the path with
the slashes at its end taken away. -/
def find? (path : Text) : Option Route :=
  match ofPath? path with
  | some route => some route
  | none => ofPath? (Text.dropTrailing (· = CodePoint.ofChar '/') path)

end Route

/-- Answers a request for a route. -/
def answerRoute (server : Server) (moment : Moment) (request : Request) : Route → Response
  | .health => server.answerHealth
  | .live => server.answerLive
  | .ready => server.answerReady
  | .metrics => server.answerMetrics moment
  | .printedMetrics => server.answerPrinted moment
  | .databases => server.answerList moment
  | .find name => server.answerFind moment name request.body
  | .search name => server.answerSearch moment name request.address

/-- Answers a request. -/
def answer (server : Server) (moment : Moment) (request : Request) : Response :=
  match Route.find? request.address.path with
  | none => silent server .notFound
  | some route =>
    if request.method = route.method then server.answerRoute moment request route
    else silent server .methodNotAllowed

end Server

end RecordLog
