import RecordLog.CommandLine.Places
import RecordLog.Failure
import RecordLog.Json.Reader
import RecordLog.Query.Document
import RecordLog.Text.Lowercase

/-!
# Commands

The program has four commands: `find` runs a query document, `text` searches for
words, `where` compares one field, and `list-databases` lists what is configured.
The first three name a database first, and take the sort keys and the projection
as JSON objects.

A file of settings may be named before the command.
-/

namespace RecordLog.CommandLine

/-- How the results of a command are arranged and printed. -/
structure Presentation where
  sort : Option Members
  projection : Option Members
  /-- One line for every record. -/
  lines : Bool

/-- A command that finds records: in which database, and by which query. -/
structure FindCommand where
  database : Text
  query : Json
  presentation : Presentation

/-- A command. -/
inductive Command where
  | find (f : FindCommand)
  | listDatabases
  /-- A command whose texts are not texts: two dashes stood for one of them. -/
  | wordless

/-- A command line. -/
structure Invocation where
  settingsFile : Option Text
  command : Command

/-! ### Options -/

/-- The option that names a file of settings. -/
def configOption : OptionName := ⟨"--config", true⟩

/-- The option for sort keys. -/
def sortOption : OptionName := ⟨"--sort", true⟩

/-- The option for a projection. -/
def projectionOption : OptionName := ⟨"--projection", true⟩

/-- The option to print one record a line. -/
def linesOption : OptionName := ⟨"--lines", false⟩

/-- The options of the commands that find records. -/
def findOptions : List OptionName := [sortOption, projectionOption, linesOption]

/-- A JSON object. -/
def readObject (t : Text) : Except UsageFault Members :=
  match Json.read t with
  | .ok (.obj members) => .ok members
  | _ => .error .unusable

/-- Any JSON value; what is none is a text, unless a number is too long. -/
def readValue (t : Text) : Except UsageFault Json :=
  match Json.read t with
  | .ok v => .ok v
  | .error (.offence _) => .ok (.str t)
  | .error .tooManyDigits => .error .unusable

/-- The symbol of an operator, which may be written without the dollar sign. -/
def readOperator (t : Text) : Except UsageFault Text :=
  let symbol := if t.head? = some (CodePoint.ofChar '$') then t else CodePoint.ofChar '$' :: t.lowercase
  if (Operator.ofSymbol? symbol).isSome then .ok symbol else .error .unusable

/-- The presentation that options ask for; of two for the same, the last
counts. -/
def Presentation.ofOptions : List (OptionName × Text) → Except UsageFault Presentation
  | [] => .ok ⟨none, none, false⟩
  | (name, value) :: later =>
    match Presentation.ofOptions later with
    | .error fault => .error fault
    | .ok p =>
      if name = sortOption then
        (readObject value).map fun o => { p with sort := p.sort.or (some o) }
      else if name = projectionOption then
        (readObject value).map fun o => { p with projection := p.projection.or (some o) }
      else .ok { p with lines := true }

/-! ### Places -/

/-- The query of a search for words. -/
def wordsQuery (phrase : List Text) : Json :=
  .obj [(Query.wordsKey, .str (joined (Text.ofString " ") phrase))]

/-- The query of a comparison. -/
def whereQuery (field symbol : Text) (value : Json) : Json :=
  .obj [(field, .obj [(symbol, value)])]

/-- The find command with the given places. -/
def findCommand (p : Presentation) : List (List Text) → Except UsageFault Command
  | [[db], []] => .ok (.find ⟨db, .obj [], p⟩)
  | [[db], [t]] => (readObject t).map fun o => .find ⟨db, .obj o, p⟩
  | [[], [t]] => (readObject t).map fun _ => .wordless
  | _ => .ok .wordless

/-- The text command with the given places. -/
def textCommand (p : Presentation) : List (List Text) → Except UsageFault Command
  | [[db], phrase] => .ok (.find ⟨db, wordsQuery phrase, p⟩)
  | _ => .ok .wordless

/-- The where command with the given places. -/
def whereCommand (p : Presentation) : List (List Text) → Except UsageFault Command
  | [dbs, fields, ops, values] => do
    let symbols ← ops.mapM readOperator
    let value ←
      match values with
      | [t] => readValue t
      | _ => .ok (.arr [])
    match dbs, fields, symbols with
    | [db], [field], [symbol] => .ok (.find ⟨db, whereQuery field symbol value, p⟩)
    | _, _, _ => .ok .wordless
  | _ => .ok .wordless

/-- A command that finds records. -/
def readFind (places : List Place)
    (make : Presentation → List (List Text) → Except UsageFault Command) (argv : List Text) :
    Except UsageFault Command :=
  match readArguments findOptions places argv with
  | .error fault => .error fault
  | .ok args =>
    match Presentation.ofOptions args.options with
    | .error fault => .error fault
    | .ok p => make p args.places

/-- The command with a name. -/
def readCommand (name : Text) (argv : List Text) : Except UsageFault Command :=
  if name = Text.ofString "find" then readFind [.one, .optional] findCommand argv
  else if name = Text.ofString "text" then readFind [.one, .many] textCommand argv
  else if name = Text.ofString "where" then readFind [.one, .one, .one, .one] whereCommand argv
  else if name = Text.ofString "list-databases" then
    (readArguments [] [] argv).map fun _ => .listDatabases
  else .error .unusable

/-- Reads a command line: options, and a command with all that follows it. -/
def readInvocation (settingsFile : Option Text) : List Text → Except UsageFault Invocation
  | [] => .error .unusable
  | t :: rest =>
    if t = Text.ofString "--" then .error .unusable
    else
      match classify [helpOption, configOption] t with
      | .plain name => (readCommand name rest).map (⟨settingsFile, ·⟩)
      | .option name value =>
        if name = configOption then
          match value, rest with
          | some file, rest => readInvocation (some file) rest
          | none, file :: rest =>
            match classify [helpOption, configOption] file with
            | .plain file =>
              if file = Text.ofString "--" then .error .unusable
              else readInvocation (some file) rest
            | _ => .error .unusable
          | none, [] => .error .unusable
        else if value.isSome then .error .unusable
        else .error .help
      | _ => .error .unusable

end RecordLog.CommandLine
