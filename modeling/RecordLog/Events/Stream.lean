import RecordLog.Json.Writer
import RecordLog.Storage.Disk
import RecordLog.Text.Blank
import RecordLog.Text.Lowercase

/-!
# The event stream

A service can report every operation as one line of JSON, on standard output or
at the end of a file.  Where the lines go is decided by configuring the stream;
what it wrote to before is closed then, also if the new destination cannot be
opened, in which case the stream is off.

The stream remembers two things, the destination and the file that is open.
Closing the file keeps the destination, and nothing is written then until the
stream is configured again.

Every line begins with the time, and fields that are null are left out.
-/

namespace RecordLog

/-- Where events go. -/
structure EventStream where
  /-- The destination, unless the stream is off. -/
  destination : Option Text
  /-- The place of the file that is open. -/
  handle : Option Place
deriving DecidableEq

namespace EventStream

/-- The words that turn the stream off. -/
def offWords : List Text := ["", "null", "none"]

/-- The word for standard output. -/
def standardOutput : Text := "stdout"

/-- Events go nowhere. -/
def off : EventStream := ⟨none, none⟩

/-- Events go to standard output. -/
def printing : EventStream := ⟨some standardOutput, none⟩

/-- Closes the file that is open, if any. -/
def close (stream : EventStream) : EventStream :=
  { stream with handle := none }

/-- The destination that a setting names; nothing turns the stream off. -/
def destination? (setting : Option Text) : Option Text :=
  setting.bind fun t =>
    if t.trimmed.lowercase.isOneOf offWords then none else some t.trimmed

/-- Why a target cannot be a file, given what stands at its place, which is no directory.  A
target that ends in a slash asks for a directory, and so does one whose last part is a dot; but
a dot is looked for where it stands. -/
def misnamed? (node : Option Node) (target : Text) : Option StorageFault :=
  let parts := splitOn (CodePoint.ofChar '/') target
  if parts.getLast?.any Path.isName then none
  else if (parts.filter (· != [])).getLast? = some (Text.ofString ".") then
    match node with
    | some (.file _) => some .notFolder
    | _ => some .missing
  else some .isFolder

/-- Opens a file for events, and makes it if there is none: its place, and the disk. -/
def openFile (disk : Disk) (target : Text) : Outcome (Place × Disk) :=
  let path := Path.ofText target
  match Disk.refusal? target path with
  | some failure => .error failure
  | none =>
    match disk.locateForWriting path with
    | .error failure => .error failure
    | .ok place =>
      match misnamed? (disk.node? place) target with
      | some fault => .error (.storage ⟨fault, path⟩)
      | none => .ok (place, disk.put place (.file (disk.contentAt place)))

/-- What configuring the stream leads to: the destination that is active then, or
why it cannot be opened; the stream; the disk. -/
structure Configured where
  active : Outcome (Option Text)
  stream : EventStream
  disk : Disk

/-- Points the stream at a destination. -/
def configure (stream : EventStream) (disk : Disk) (setting : Option Text) : Configured :=
  let stream := { stream.close with destination := none }
  match destination? setting with
  | none => ⟨.ok none, stream, disk⟩
  | some target =>
    if target = standardOutput then
      ⟨.ok (some target), { stream with destination := some target }, disk⟩
    else
      match openFile disk target with
      | .error failure => ⟨.error failure, stream, disk⟩
      | .ok (place, disk) => ⟨.ok (some target), ⟨some target, some place⟩, disk⟩

/-- The payload of an event: the time, and the fields that are not null. -/
def payload (time : Text) (fields : Members) : Members :=
  Members.setAll [("ts", .str time)] (fields.filter fun (_, v) => !v.isNull)

/-- The line of an event. -/
def line (time : Text) (fields : Members) : Text :=
  Json.write .compact (.obj (payload time fields)) ++ Text.ofString "\n"

/-- Adds text to the end of the file at a place. -/
def appendAt (disk : Disk) (place : Place) (t : Text) : Disk :=
  disk.put place (.file (disk.contentAt place ++ t.encodeUtf8))

/-- Writes an event: the lines that appear on standard output, and the disk. -/
def emit (stream : EventStream) (disk : Disk) (time : Text) (fields : Members) :
    List Text × Disk :=
  match stream.destination with
  | none => ([], disk)
  | some target =>
    if target = standardOutput then ([line time fields], disk)
    else
      match stream.handle with
      | some place => ([], appendAt disk place (line time fields))
      | none => ([], disk)

end EventStream

end RecordLog
