import RecordLog.Text.Digit
import RecordLog.Split

/-!
# Words of a command line

A command line is a list of texts.  A text that begins with a dash is an option,
unless it is a dash alone, a negative number, or holds a space without naming an
option that is known.  An option is named in full, or by a beginning of its long
name that no other option shares, and may bring its value after an equals sign.

The first text that is two dashes ends the options: everything after it is
plain.
-/

namespace RecordLog.CommandLine

/-- An option that a command knows. -/
structure OptionName where
  /-- The long name, with its dashes. -/
  long : Text
  /-- Whether a value follows. -/
  takesValue : Bool
deriving DecidableEq

/-- The option that asks for help; it has a short name too. -/
def helpOption : OptionName := ⟨"--help", false⟩

/-- The short name of the option for help. -/
def helpShort : Text := "-h"

/-- A word of a command line. -/
inductive Word where
  | plain (t : Text)
  /-- The two dashes that end the options. -/
  | separator
  | option (name : OptionName) (value : Option Text)
  /-- An option that is not known, or not by one name alone. -/
  | unknown
deriving DecidableEq

namespace Word

/-- The text of a word that is no option. -/
def text : Word → Text
  | plain t => t
  | _ => "--"

/-- Whether a word can fill a place that is not an option's. -/
def isPlace : Word → Bool
  | plain _ => true
  | separator => true
  | _ => false

end Word

/-- Whether a text is one line feed or nothing. -/
def isLineEnd (t : Text) : Bool :=
  t = [] || t = Text.ofString "\n"

/-- Whether a text is digits, and a line feed at most after them. -/
def isDigitsAtEnd (t : Text) : Bool :=
  t.head?.any Text.isDecimalDigit && isLineEnd (t.dropWhile Text.isDecimalDigit)

/-- Whether a text is a negative number. -/
def isNegativeNumber (t : Text) : Bool :=
  match t with
  | [] => false
  | c :: rest =>
    c = CodePoint.ofChar '-' &&
      (isDigitsAtEnd rest ||
        match rest.dropWhile Text.isDecimalDigit with
        | [] => false
        | p :: fraction => p = CodePoint.ofChar '.' && isDigitsAtEnd fraction)

/-- A text before and after its first equals sign. -/
def cutValue (t : Text) : Text × Option Text :=
  match Text.cutAt? (CodePoint.ofChar '=') t with
  | some (name, value) => (name, some value)
  | none => (t, none)

/-- The options that a name can mean: the one with this long name, or all whose
long name begins with it. -/
def optionsNamed (known : List OptionName) (name : Text) : List OptionName :=
  match known.filter fun o => o.long = name with
  | [] => known.filter fun o => (Text.dropStart? name o.long).isSome
  | exact => exact

/-- The option that a text names. -/
def findOption (known : List OptionName) (t : Text) : Option Word :=
  let (name, value) := cutValue t
  if (Text.dropStart? "--" name).isSome then
    match optionsNamed known name with
    | [] => none
    | [o] => some (.option o value)
    | _ => some .unknown
  else if name = helpShort then some (.option helpOption value)
  else if (Text.dropStart? helpShort t).isSome then some (.option helpOption none)
  else none

/-- The word of a text before the options have ended. -/
def classify (known : List OptionName) (t : Text) : Word :=
  match t with
  | [] => .plain t
  | [_] => .plain t
  | c :: _ =>
    if c ≠ CodePoint.ofChar '-' then .plain t
    else
      match findOption known t with
      | some word => word
      | none =>
        if isNegativeNumber t || CodePoint.ofChar ' ' ∈ t then .plain t else .unknown

/-- The words of a command line. -/
def words (known : List OptionName) : List Text → List Word
  | [] => []
  | t :: ts =>
    if t = Text.ofString "--" then .separator :: ts.map .plain
    else classify known t :: words known ts

end RecordLog.CommandLine
