import RecordLog.Json
import RecordLog.Json.Writer
import RecordLog.Number.Shortest
import RecordLog.Text.Quoted

/-!
# Values in messages

Messages show a value in a form of their own: texts as quotations, the words
`None`, `True` and `False`, and the doubles without digits as `nan` and `inf`.
A value that is asked for as plain text is shown the same way, except that a text
stands for itself.
-/

namespace RecordLog.Json

/-- The words of messages for the doubles without digits. -/
def displayWords : DoubleWords := ⟨"nan", "inf"⟩

mutual

/-- A value as messages show it. -/
def display : Json → Text
  | null => "None"
  | bool true => "True"
  | bool false => "False"
  | int n => Text.ofInt n
  | float x => x.render displayWords
  | str t => Text.quoted t
  | arr items => bracketed '[' ']' ", " (displayItems items)
  | obj ms => bracketed '\x7B' '\x7D' ", " (displayMembers ms)

/-- Items as messages show them. -/
def displayItems : List Json → List Text
  | [] => []
  | v :: later => display v :: displayItems later

/-- Members as messages show them. -/
def displayMembers : List (Text × Json) → List Text
  | [] => []
  | (k, v) :: later => (Text.quoted k ++ ": " ++ display v) :: displayMembers later

end

/-- A value as plain text. -/
def plain : Json → Text
  | str t => t
  | v => display v

end RecordLog.Json
