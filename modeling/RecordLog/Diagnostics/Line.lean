import RecordLog.Diagnostics.Directive

/-!
# Diagnostic lines

Diagnostics are messages with a level and the name of the part that they come
from.  A line is a template filled in with them.  With colours on, the level and
the message stand in the colour of the level, and the names of this program's own
parts in bold; the message itself is the same object for everybody else.
-/

namespace RecordLog

/-- A diagnostic message: a template and what it is filled in with. -/
structure Diagnostic where
  name : Text
  level : Int
  message : Text
  arguments : List Json

namespace Diagnostic

/-- The named levels. -/
def levelNames : List (Int × Text) :=
  [(0, "NOTSET"), (10, "DEBUG"), (20, "INFO"), (30, "WARNING"), (40, "ERROR"),
    (50, "CRITICAL")]

/-- The name of a level. -/
def levelName (level : Int) : Text :=
  match levelNames.lookup level with
  | some name => name
  | none => Text.ofString "Level " ++ Text.ofInt level

/-- The beginning of a control sequence of terminals. -/
def control (code : String) : Text :=
  "\x1B[" ++ Text.ofString code ++ "m"

/-- Back to plain text. -/
def plainControl : Text := control "0"

/-- Bold text. -/
def boldControl : Text := control "1"

/-- The colour of a level: cyan, green, yellow, red and magenta. -/
def colour (level : Int) : Text :=
  if level = 10 then control "36"
  else if level = 20 then control "32"
  else if level = 30 then control "33"
  else if level = 40 then control "31"
  else if level = 50 then control "35"
  else []

/-- The name of this program, which the names of its parts begin with. -/
def programName : Text := "loq"

/-- Whether a name is that of a part of this program. -/
def isOwnName (name : Text) : Bool :=
  name = programName || (Text.dropStart? (programName ++ ".") name).isSome

/-- What a message is filled in with: a single object that is not empty is taken
by its keys. -/
def filling : List Json → Filling
  | [.obj (m :: ms)] => .members (m :: ms)
  | vs => .values vs

/-- The message, filled in unless it has no arguments. -/
def filledMessage (d : Diagnostic) : Outcome Text :=
  match d.arguments with
  | [] => .ok d.message
  | arguments => (filling arguments).fill d.message

/-- The fields of a line without colours. -/
def plainFields (d : Diagnostic) (message : Text) : Members :=
  [("name", .str d.name), ("msg", .str d.message), ("args", .arr d.arguments),
    ("levelname", .str (levelName d.level)), ("levelno", .int d.level),
    ("message", .str message)]

/-- The fields of a line with colours. -/
def colouredFields (d : Diagnostic) (message : Text) : Members :=
  let colour := colour d.level
  let name := if isOwnName d.name then boldControl ++ d.name ++ plainControl ++ colour else d.name
  let message := colour ++ message ++ plainControl
  [("name", .str name), ("msg", .str message), ("args", .null),
    ("levelname", .str (colour ++ levelName d.level ++ plainControl)),
    ("levelno", .int d.level), ("message", .str message)]

/-- The template of a line that consists of the message alone. -/
def messageTemplate : Text := "%(message)s"

/-- The letters with which a keyed directive may end in a template for lines. -/
def directiveLetters : Text := "diouxXeEfFgGcCrRsSaAOUDI%"

/-- Whether a directive has a key of word characters and a known letter, and no
size. -/
def isKeyed (d : Directive) : Bool :=
  match d.key, d.letter with
  | some (c :: key), some letter =>
    (c :: key).all isWordPoint && letter ∈ directiveLetters && !d.sized
  | _, _ => false
where
  /-- Letters, digits and the underscore. -/
  isWordPoint (c : CodePoint) : Bool :=
    c.isAsciiDigit || c = CodePoint.ofChar '_' || (0x41 ≤ c.val && c.val ≤ 0x5A)
      || (0x61 ≤ c.val && c.val ≤ 0x7A) || 0x80 ≤ c.val

/-- Whether a template has a keyed directive at all. -/
def hasField : Text → Bool
  | [] => false
  | c :: t =>
    (c = CodePoint.ofChar '%' && (match Directive.read? t with
      | some (d, _) => isKeyed d
      | none => false)) || hasField t

/-- What a line is filled in with. -/
def lineFields (d : Diagnostic) (useColour : Bool) (message : Text) : Members :=
  if useColour then d.colouredFields message else d.plainFields message

/-- The failure of a template for lines: a field that does not exist makes it
malformed. -/
def lineFailure : Failure → Failure
  | .absent => .malformed
  | failure => failure

/-- The line of a diagnostic.  A template must have a field. -/
def line (d : Diagnostic) (template : Text) (useColour : Bool) : Outcome Text :=
  let template := if template = [] then messageTemplate else template
  if !hasField template then .error .malformed
  else
    match d.filledMessage with
    | .error e => .error e
    | .ok message =>
      ((Filling.members (d.lineFields useColour message)).fill template).mapError lineFailure

end Diagnostic

end RecordLog
