import RecordLog.Failure

/-!
# Metrics

A running service counts its requests, its queries, what they loaded and matched,
and its errors, and remembers the last error.  Counters are doubles, since
anything numeric can be added to them; six of them exist from the start, and
others come into being when they are added to.  Resetting makes all counters zero
and forgets the last error, but keeps the counters there are.
-/

namespace RecordLog

/-- The counters of a service, in order, and its last error. -/
structure Metrics where
  counters : List (Text × Double)
  lastError : Option Text

namespace Metrics

/-- The names of the counters that exist from the start. -/
def firstNames : List Text :=
  ["requests_total", "queries_total", "text_queries_total", "records_loaded_total",
    "matches_total", "errors_total"]

/-- The metrics of a service that has done nothing. -/
def zero : Metrics :=
  ⟨firstNames.map (·, Double.zero), none⟩

/-- The value of a counter. -/
def counter (m : Metrics) (name : Text) : Double :=
  (m.counters.lookup name).getD Double.zero

/-- Gives a counter a value, in its place if it exists. -/
def setCounter (name : Text) (value : Double) : List (Text × Double) → List (Text × Double)
  | [] => [(name, value)]
  | (n, v) :: later =>
    if n = name then (n, value) :: later else (n, v) :: setCounter name value later

/-- Adds to a counter. -/
def add (m : Metrics) (name : Text) (value : Double) : Metrics :=
  { m with counters := setCounter name ((m.counter name).add value) m.counters }

/-- Adds a whole number to a counter. -/
def addNat (m : Metrics) (name : Text) (n : Nat) : Metrics :=
  m.add name (Double.ofIntRounded n)

/-- Counts one more. -/
def count (m : Metrics) (name : Text) : Metrics :=
  m.addNat name 1

/-- Adds a value to a counter. -/
def addJson (m : Metrics) (name : Text) (value : Json) : Outcome Metrics :=
  value.toDouble.map (m.add name)

/-- Remembers an error and counts it. -/
def setError (m : Metrics) (message : Text) : Metrics :=
  { m with lastError := some message }.count "errors_total"

/-- Makes all counters zero and forgets the last error. -/
def reset (m : Metrics) : Metrics :=
  ⟨m.counters.map fun (name, _) => (name, Double.zero), none⟩

/-! ### Reports -/

/-- The last error as a value. -/
def lastErrorValue (m : Metrics) : Json :=
  match m.lastError with
  | some message => .str message
  | none => .null

/-- All there is to report, given how many seconds the service has been running:
the counters, the uptime, the last error. -/
def entries (m : Metrics) (uptime : Double) : Members :=
  Members.setAll (m.counters.map fun (name, value) => (name, .float value))
    [("uptime_seconds", .float uptime), ("last_error", m.lastErrorValue)]

/-- A report with entries of the caller, which take the place of others of their
name. -/
def snapshot (m : Metrics) (uptime : Double) (extra : Json) : Outcome Members :=
  let entries := m.entries uptime
  if extra.truthy then
    match extra with
    | .obj members => .ok (Members.setAll entries members)
    | .str _ => .error .malformed
    | _ => .error .unsuitable
  else .ok entries

/-- What stands before the name of every printed metric. -/
def printedMark : Text := "logquery_"

/-- The printed line of an entry, if it is a number. -/
def line? (entry : Text × Json) : Outcome (Option Text) :=
  let line (x : Double) : Text :=
    printedMark ++ entry.1 ++ " " ++ x.render Json.displayWords
  match entry.2 with
  | .float x => .ok (some (line x))
  | .int n =>
    match Double.ofInt? n with
    | some x => .ok (some (line x))
    | none => .error .overflow
  | _ => .ok none

/-- The printed lines of entries. -/
def lines : Members → Outcome (List Text)
  | [] => .ok []
  | entry :: later =>
    match line? entry with
    | .error e => .error e
    | .ok line => (lines later).map (line.toList ++ ·)

/-- One label of a printed metric. -/
def label (member : Text × Json) : Text :=
  member.1 ++ "=\"" ++ member.2.plain ++ "\""

/-- The printed line about the build, if there is anything to say. -/
def buildLines (build : Json) : Outcome (List Text) :=
  if build.truthy then
    match build with
    | .obj members =>
      .ok [printedMark ++ "build_info\x7B" ++ joined "," (members.map label) ++ "\x7D 1"]
    | _ => .error .memberless
  else .ok []

/-- The metrics in printed form: a line for every number. -/
def print (m : Metrics) (uptime : Double) (extra build : Json) : Outcome Text :=
  match m.snapshot uptime extra with
  | .error e => .error e
  | .ok entries =>
    match lines entries with
    | .error e => .error e
    | .ok numbers =>
      (buildLines build).map fun about =>
        joined (Text.ofString "\n") (numbers ++ about) ++ Text.ofString "\n"

end Metrics

end RecordLog
