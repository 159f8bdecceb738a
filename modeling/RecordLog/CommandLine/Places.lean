import RecordLog.CommandLine.Words

/-!
# Places of a command line

A command has places for its arguments, which are filled in order by the words
that are no options.  The words between two options fill as many places as they
can, and a place that can do without a word is then filled with none.  Words for
which there is no place left, and options that are not known, make the command
line unusable, and so do an option for a value that has none, or with a value
that it does not take.
-/

namespace RecordLog.CommandLine

/-- A place for arguments. -/
inductive Place where
  /-- For one word. -/
  | one
  /-- For one word, or none. -/
  | optional
  /-- For one word or more. -/
  | many
deriving DecidableEq

namespace Place

/-- The words that a place takes, and the others.  Two dashes may stand on both
sides of a word. -/
def take (place : Place) (ws : List Word) : Option (List Word × List Word) :=
  let isSeparator (w : Word) : Bool := w = .separator
  let lead := ws.takeWhile isSeparator
  match place, ws.dropWhile isSeparator with
  | many, .plain t :: rest => some (lead ++ .plain t :: rest, [])
  | many, _ => none
  | _, .plain t :: rest =>
    some (lead ++ .plain t :: rest.takeWhile isSeparator, rest.dropWhile isSeparator)
  | one, _ => none
  | optional, rest => some (lead, rest)

/-- The texts of the words that a place took, without the first two dashes. -/
def texts (ws : List Word) : List Text :=
  (ws.map Word.text).erase "--"

end Place

/-- Places that are filled, the places that are left, and the words that are
left. -/
def fillPlaces : List Place → List Word → List (List Text) × List Place × List Word
  | [], ws => ([], [], ws)
  | place :: places, ws =>
    match place.take ws with
    | none => ([], place :: places, ws)
    | some (taken, ws) =>
      let (filled, places, ws) := fillPlaces places ws
      (Place.texts taken :: filled, places, ws)

/-- What a command line gives: the texts in its places, and its options in order
with their values. -/
structure Arguments where
  places : List (List Text)
  options : List (OptionName × Text)

/-- Why a command line cannot be followed. -/
inductive UsageFault where
  /-- It asks for help. -/
  | help
  /-- It has none of the known forms. -/
  | unusable
deriving DecidableEq

/-- Whether a place need not be filled. -/
def Place.isOptional (place : Place) : Bool :=
  place = .optional

/-- An option with its value, and the words after it. -/
def takeOption (name : OptionName) (value : Option Text) (rest : List Word) :
    Except UsageFault ((OptionName × Text) × List Word) :=
  if name.takesValue then
    match value, rest with
    | some value, rest => .ok ((name, value), rest)
    | none, .plain value :: rest => .ok ((name, value), rest)
    | none, _ => .error .unusable
  else if value.isSome then .error .unusable
  else if name = helpOption then .error .help
  else .ok ((name, []), rest)

/-- Reads the words of a command line.  The fuel is the number of words. -/
def readWords : (fuel : Nat) → List Place → List Word → Except UsageFault Arguments
  | _, places, [] =>
    let (filled, places, _) := fillPlaces places []
    if places.all Place.isOptional then .ok ⟨filled, []⟩ else .error .unusable
  | 0, _, _ :: _ => .error .unusable
  | fuel + 1, places, .option name value :: rest =>
    match takeOption name value rest with
    | .error fault => .error fault
    | .ok (option, rest) =>
      (readWords fuel places rest).map fun args => { args with options := option :: args.options }
  | _ + 1, _, .unknown :: _ => .error .unusable
  | fuel + 1, places, ws =>
    let run := ws.takeWhile Word.isPlace
    match fillPlaces places run with
    | (filled, places, []) =>
      (readWords fuel places (ws.dropWhile Word.isPlace)).map fun args =>
        { args with places := filled ++ args.places }
    | (_, _, _ :: _) => .error .unusable

/-- Reads a command line with the given options and places. -/
def readArguments (known : List OptionName) (places : List Place) (argv : List Text) :
    Except UsageFault Arguments :=
  let ws := words (helpOption :: known) argv
  readWords ws.length places ws

end RecordLog.CommandLine
