import RecordLog.Record.Log
import RecordLog.Storage.Disk
import RecordLog.Query.Combine
import RecordLog.Query.Words
import RecordLog.Query.Order

/-!
# Databases

A database is the path of a record log and how it is read.  Finding records takes
three steps: the options are read, then the log is read as a whole, and then
everything else is a function of what that read gave.  So nothing that happens
to the file afterwards, and no other call, can change a result.

A `Handle` is a database together with the records of its last load.  They are
there for inspection only: no query is answered from them.
-/

namespace RecordLog

/-- What reading a log gave: all its octets, or why there are none. -/
abbrev LogReading := Outcome Octets

/-! ### Queries over loaded records -/

/-- The records that a query selects. -/
def Query.select (textFields : List Text) (rs : List Record) : Query → Outcome (List Record)
  | .everything => .ok rs
  | .words phrase => .ok (Record.search textFields phrase rs)
  | .combined how clauses => how.select rs clauses
  | .fields clauses => Combination.all.select rs clauses

/-- A document is no query before it is classified, whatever it holds. -/
def Query.selectUnclassified (_document : Json) : Outcome (List Record) :=
  .error .unsuitable

/-- Keeps the fields that a projection names, in its order; all fields without
a projection. -/
def QueryOptions.projected (options : QueryOptions) (rs : List Record) : List Record :=
  match options.projection with
  | none => rs
  | some fields => rs.map (Record.project · fields)

/-- Sorts and projects results. -/
def QueryOptions.arrange (options : QueryOptions) (rs : List Record) : Outcome (List Record) :=
  match Record.sortByKeys? options.sort rs with
  | some sorted => .ok (options.projected sorted)
  | none => .error .unsuitable

/-- The document that stands for a missing one: what counts as no is a query for
every record. -/
def Query.documentOrEverything (document : Json) : Json :=
  if document.truthy then document else .obj []

/-! ### Databases -/

/-- A record log and how it is read. -/
structure Database where
  /-- Where the log is. -/
  path : Path
  /-- The fields that are searched for words. -/
  textFields : List Text
  /-- Whether two records of the log may not have one identity. -/
  strictIds : Bool
deriving DecidableEq

namespace Database

/-- How a database is shown. -/
def display (db : Database) : Text :=
  "Database(" ++ Text.quoted db.path.render ++ ", text_fields=" ++
    (Json.arr (db.textFields.map .str)).display ++ ")"

/-- The records of a reading of the log. -/
def load (db : Database) (reading : LogReading) : Outcome (List Record) :=
  match reading with
  | .error failure => .error failure
  | .ok content => Log.load db.path db.strictIds content

/-- The answer to a query document over loaded records.  Without records every
document has the empty answer. -/
def answer (db : Database) (document : Json) (options : QueryOptions)
    (records : List Record) : Outcome (List Record) :=
  match records with
  | [] => .ok []
  | _ :: _ =>
    match Query.classify (Query.documentOrEverything document) (Record.knownFields records) with
    | .error e => .error (.query e)
    | .ok query =>
      match query.select db.textFields records with
      | .error failure => .error failure
      | .ok found => options.arrange found

/-- The answer to a query document, given what reading the log gave. -/
def findWith (db : Database) (document : Json) (options : QueryOptions)
    (reading : LogReading) : Outcome (List Record) :=
  match db.load reading with
  | .error failure => .error failure
  | .ok records => db.answer document options records

/-- The answer to a query document with options as they are written. -/
def find (db : Database) (document options : Json) (reading : LogReading) :
    Outcome (List Record) :=
  match QueryOptions.ofJson options with
  | .error e => .error (.query e)
  | .ok options => db.findWith document options reading

/-- The log as it is on a disk. -/
def readFrom (db : Database) (disk : Disk) : LogReading :=
  disk.read db.path

end Database

/-! ### Handles -/

/-- A database and the records of its last successful load. -/
structure Handle where
  database : Database
  records : List Record

namespace Handle

/-- A handle on a database that was not loaded yet. -/
def new (db : Database) : Handle := ⟨db, []⟩

/-- The handle after a reading of the log: a log that cannot be loaded leaves the
records as they were. -/
def afterReading (h : Handle) (reading : LogReading) : Handle :=
  match h.database.load reading with
  | .ok records => { h with records }
  | .error _ => h

/-- Loads the log. -/
def load (h : Handle) (reading : LogReading) : Outcome (List Record) × Handle :=
  (h.database.load reading, h.afterReading reading)

/-- Answers a query with options that were read before. -/
def findWith (h : Handle) (document : Json) (options : QueryOptions)
    (reading : LogReading) : Outcome (List Record) × Handle :=
  (h.database.findWith document options reading, h.afterReading reading)

/-- Answers a query.  Options that cannot be read keep the log from being
read. -/
def find (h : Handle) (document options : Json) (reading : LogReading) :
    Outcome (List Record) × Handle :=
  match QueryOptions.ofJson options with
  | .error e => (.error (.query e), h)
  | .ok options => h.findWith document options reading

/-- Answers several queries over one state of the log, in their order. -/
def findEach (h : Handle) (documents : List Json) (reading : LogReading) :
    List (Outcome (List Record)) × Handle :=
  match documents with
  | [] => ([], h)
  | document :: later =>
    let (result, h) := h.find document .null reading
    let (results, h) := findEach h later reading
    (result :: results, h)

end Handle

end RecordLog
