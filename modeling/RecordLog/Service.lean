import RecordLog.Metrics
import RecordLog.Settings.Catalog

/-!
# The query service

The service opens databases by the names that are configured, finds records in
them, and keeps account of it.  A find is counted when it begins.  If it fails
because of the query or the log, the error is remembered; if it succeeds, the
records that were loaded and those that matched are counted.

A find has two parts, before and after the log is read, so that finds can run side
by side: `beginFind` and `endFind` touch the metrics, and nothing but the reading of
the log lies between them.
-/

namespace RecordLog.Service

/-- An error for a database that is not configured. -/
def unknownDatabase (name : Text) : QueryError :=
  .make .unknownDatabase ("unknown database: " ++ name) [("database", .str name)]

/-- The names of all configured databases. -/
def databaseNames (s : Section) : Outcome (List Json) :=
  s.databaseNames

/-- Opens a database by name.  If paths are allowed, a name that is not configured
and leads to a file opens that file, without fields to search. -/
def openDatabase (s : Section) (platform : Platform) (disk : Disk) (name : Text)
    (allowPaths : Bool) : Outcome Database × Section :=
  match s.database platform name with
  | (.error e, s) => (.error e, s)
  | (.ok (some entry), s) => (.ok entry.database, s)
  | (.ok none, s) =>
    let path := Path.ofText name
    match if allowPaths then disk.isFile path else .ok false with
    | .error e => (.error e, s)
    | .ok true =>
      let (strict, s) := s.usualStrictness
      (.ok ⟨path, [], strict.truthy⟩, s)
    | .ok false => (.error (.query (unknownDatabase name)), s)

/-- Whether a query is a search for words.  Only its first key, item or letter is
looked at; what has none of these cannot be looked at. -/
def asksForWords (query : Json) : Outcome Bool :=
  match query with
  | .obj ((key, _) :: _) => .ok (key = Query.wordsKey)
  | .arr (.str t :: _) => .ok (t = Query.wordsKey)
  | .str (c :: _) => .ok ([c] = Query.wordsKey)
  | v => if v.truthy && v.quantity?.isSome then .error .unsuitable else .ok false

/-- Counts a find that begins. -/
def beginFind (m : Metrics) (query : Json) : Outcome Unit × Metrics :=
  let m := m.count "queries_total"
  match asksForWords query with
  | .error e => (.error e, m)
  | .ok true => (.ok (), m.count "text_queries_total")
  | .ok false => (.ok (), m)

/-- Keeps account of a find that ends, given how many records were loaded. -/
def endFind (m : Metrics) (loaded : Nat) (result : Outcome (List Record)) : Metrics :=
  match result with
  | .ok found => (m.addNat "records_loaded_total" loaded).addNat "matches_total" found.length
  | .error failure =>
    match failure.remembered? with
    | some message => m.setError message
    | none => m

/-- Finds records and keeps account of it. -/
def find (m : Metrics) (h : Handle) (query options : Json) (reading : LogReading) :
    Outcome (List Record) × Metrics :=
  match beginFind m query with
  | (.error e, m) => (.error e, m)
  | (.ok (), m) =>
    let (result, h) := h.find query options reading
    (result, endFind m h.records.length result)

/-- What a find answers: the records and their number. -/
def findReport (found : List Record) : Members :=
  [("matches", .arr (found.map .obj)), ("count", .ofNat found.length)]

end RecordLog.Service
