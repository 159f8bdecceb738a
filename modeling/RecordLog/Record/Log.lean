import RecordLog.Failure
import RecordLog.Record
import RecordLog.Json.Reader
import RecordLog.Text.Utf8

/-!
# Record logs

A log is a sequence of lines that end in line feeds.  A line whose first
character is `E` is an entry: the rest of it, without carriage returns at its
end, is a JSON object with an identity.  All other lines are passed over,
whatever they hold.

A log is read in two passes.  The first decodes UTF-8 line by line, so that only
an entry can be refused for its encoding; other lines that cannot be decoded count
as blank.  The second reads the entries.  One bad entry refuses the whole log.
-/

namespace RecordLog.Log

/-- The first character of an entry. -/
def entryMark : CodePoint := 'E'

/-- The first octet of an entry. -/
def entryOctet : UInt8 := 0x45

/-- The separator of lines. -/
def lineFeed : CodePoint := '\n'

/-- The separator of lines, as an octet. -/
def lineFeedOctet : UInt8 := 0x0A

/-! ### Decoding -/

/-- The text of one line, given its number from one. -/
def decodeLine (number : Nat) (line : Octets) : Except QueryError Text :=
  match Text.decodeUtf8 line with
  | .ok t => .ok t
  | .error m =>
    if line.head? = some entryOctet then
      .error (.undecodableEntry ("entry is not valid UTF-8: " ++ m.message) number)
    else .ok []

/-- The texts of lines, given the number of the first one. -/
def decodeLines : (number : Nat) → List Octets → Except QueryError (List Text)
  | _, [] => .ok []
  | number, line :: lines =>
    match decodeLine number line with
    | .error e => .error e
    | .ok t => (decodeLines (number + 1) lines).map (t :: ·)

/-- The text of a log. -/
def decode (content : Octets) : Except QueryError Text :=
  (decodeLines 1 (splitOn lineFeedOctet content)).map (joined [lineFeed])

/-! ### Entries -/

/-- What an entry holds after its mark, or nothing if the line is no entry. -/
def payload? (line : Text) : Option Text :=
  match Text.dropTrailing (· = CodePoint.ofChar '\r') line with
  | [] => none
  | c :: rest => if c = entryMark then some rest else none

/-- Why a payload is not a record. -/
inductive PayloadFault where
  | offence (o : Json.Offence)
  | notObject
  | noIdentity
deriving DecidableEq

/-- The wording of a payload fault. -/
def PayloadFault.message : PayloadFault → Text
  | .offence o => "invalid entry payload: " ++ o.message
  | .notObject => "entry payload is not an object"
  | .noIdentity => "entry payload has no " ++ Record.idField

/-- A reading of a payload: a record, or why there is none.  A number with too
many digits is no fault of the payload and stops the reading. -/
def readPayload (payload : Text) : Except (Option PayloadFault) Record :=
  match Json.read payload with
  | .error (.offence o) => .error (some (.offence o))
  | .error .tooManyDigits => .error none
  | .ok (.obj members) =>
    if Members.hasKey members Record.idField then .ok members else .error (some .noIdentity)
  | .ok _ => .error (some .notObject)

/-- The record of an entry, given the number of its line. -/
def readEntry (number : Nat) (payload : Text) : Outcome Record :=
  match readPayload payload with
  | .ok r => .ok r
  | .error (some fault) => .error (.query (.undecodableEntry fault.message number))
  | .error none => .error .malformed

/-- The records of lines, given the number of the first one. -/
def readLines : (number : Nat) → List Text → Outcome (List Record)
  | _, [] => .ok []
  | number, line :: lines =>
    match payload? line with
    | none => readLines (number + 1) lines
    | some payload =>
      match readEntry number payload with
      | .error e => .error e
      | .ok r => (readLines (number + 1) lines).map (r :: ·)

/-- The records of a log text, in the order of lines. -/
def parse (t : Text) : Outcome (List Record) :=
  readLines 1 (splitOn lineFeed t)

/-! ### Loading -/

/-- Adds the path of the log to an error of one of its entries. -/
def locateError (path : Path) : Failure → Failure
  | .query e =>
    if e.kind = .undecodableEntry then .query (e.withDetail "path" (.str path.render))
    else .query e
  | failure => failure

/-- The records of the content of a log. -/
def readContent (content : Octets) : Outcome (List Record) :=
  match decode content with
  | .error e => .error (.query e)
  | .ok t => parse t

/-- The records of a log that was read from a path.  If `strictIds` is set, no
two of them may have one identity. -/
def load (path : Path) (strictIds : Bool) (content : Octets) : Outcome (List Record) :=
  match readContent content with
  | .error failure => .error (locateError path failure)
  | .ok records =>
    if strictIds then
      match Record.checkDistinct records with
      | .ok () => .ok records
      | .error e => .error (.query e)
    else .ok records

end RecordLog.Log
