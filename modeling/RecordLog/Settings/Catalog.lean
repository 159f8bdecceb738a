import RecordLog.Platform
import RecordLog.Query.Insertion
import RecordLog.Database

/-!
# Configured databases

The section `databases` holds an entry for every database, by name.  An entry
gives a path, and possibly text fields and whether identities are strict.  A
relative path hangs off the data directory; strictness falls back to the setting
for all queries.  An entry that is no section, or has no path, is no database.

Both fallbacks are read with a default, so looking a database up may add the
default to the settings.  It adds nothing else, and what it adds is what the next
look-up would have assumed.
-/

namespace RecordLog

/-- A configured database. -/
structure CatalogEntry where
  name : Text
  database : Database

/-- The directory of databases where none is set. -/
def usualDataDir : Json := .str "./data"

/-- The text fields that a value lists: a text is split at commas, and blanks
around its parts and empty parts are dropped. -/
def textFieldsOf (database : Text) : Json → Outcome (List Text)
  | .null => .ok []
  | .str t =>
    .ok (((splitOn (CodePoint.ofChar ',') t).map Text.trimmed).filter fun f => !f.isEmpty)
  | .arr items => .ok (items.map Json.plain)
  | v => .error (.textFields database v)

namespace Section

/-- The value of the section of databases; what counts as no is an empty one. -/
def databasesValue (s : Section) : Json :=
  let v := s.read "databases"
  if v.truthy then v else .obj []

/-- The entry of a database that has a path. -/
def entry? (s : Section) (name : Text) : Outcome (Option Section) :=
  match s.databasesValue with
  | .obj entries =>
    match Members.get? entries name with
    | some (.obj entry) =>
      .ok (if (Members.getOrNull entry "path").truthy then some entry else none)
    | _ => .ok none
  | _ => .error .memberless

/-- The path of an entry, from the data directory if it is relative. -/
def resolvePath (s : Section) (platform : Platform) (entry : Section) :
    Outcome Path × Section :=
  match platform.homeExpanded (Members.getOrNull entry "path").plain with
  | .error e => (.error e, s)
  | .ok expanded =>
    let path := Path.ofText expanded
    if path.isAbsolute then (.ok path, s)
    else
      match s.readOr "data_dir" usualDataDir with
      | (.str dir, s) => (.ok ((Path.ofText dir).append path), s)
      | (_, s) => (.error .unsuitable, s)

/-- Whether identities are strict where an entry does not say. -/
def usualStrictness (s : Section) : Json × Section :=
  s.readOr "query.strict_ids" (.bool false)

/-- Whether the identities of an entry are strict. -/
def resolveStrictness (s : Section) (entry : Section) : Bool × Section :=
  match Members.getOrNull entry "strict_ids" with
  | .null =>
    let (v, s) := s.usualStrictness
    (v.truthy, s)
  | v => (v.truthy, s)

/-- The database of an entry. -/
def resolve (s : Section) (platform : Platform) (name : Text) (entry : Section) :
    Outcome CatalogEntry × Section :=
  match s.resolvePath platform entry with
  | (.error e, s) => (.error e, s)
  | (.ok path, s) =>
    let (strictIds, s) := s.resolveStrictness entry
    match textFieldsOf name (Members.getOrNull entry "text_fields") with
    | .error e => (.error e, s)
    | .ok textFields => (.ok ⟨name, ⟨path, textFields, strictIds⟩⟩, s)

/-- The database with a name, if one is configured. -/
def database (s : Section) (platform : Platform) (name : Text) :
    Outcome (Option CatalogEntry) × Section :=
  match s.entry? name with
  | .error e => (.error e, s)
  | .ok none => (.ok none, s)
  | .ok (some entry) =>
    let (result, s) := s.resolve platform name entry
    (result.map some, s)

/-! ### All databases -/

/-- Values in their order, unless it comes to two that have none. -/
def sortedValues (vs : List Json) : Outcome (List Json) :=
  match Sorting.sortWith Json.precedes? vs with
  | some sorted => .ok sorted
  | none => .error .unsuitable

/-- The names of all entries, in order.  Settings that list values or spell a text
instead of naming entries give those values or letters as names. -/
def databaseNames (s : Section) : Outcome (List Json) :=
  match s.databasesValue with
  | .obj entries => sortedValues ((Members.keys entries).map .str)
  | .arr items => sortedValues items
  | .str t => sortedValues (t.map fun c => .str [c])
  | _ => .error .unsuitable

/-- The databases among names, up to the first one that fails. -/
def databasesNamed (s : Section) (platform : Platform) :
    List Json → Outcome (List CatalogEntry) × Section
  | [] => (.ok [], s)
  | .str name :: names =>
    match s.database platform name with
    | (.error e, s) => (.error e, s)
    | (.ok entry, s) =>
      let (entries, s) := databasesNamed s platform names
      (entries.map (entry.toList ++ ·), s)
  | _ :: _ => (.error .memberless, s)

/-- All databases, by name. -/
def allDatabases (s : Section) (platform : Platform) : Outcome (List CatalogEntry) × Section :=
  match s.databaseNames with
  | .error e => (.error e, s)
  | .ok names => s.databasesNamed platform names

end Section

end RecordLog
