import RecordLog.Record
import RecordLog.Json.Display
import RecordLog.Text.Lowercase

/-!
# Searching for words

The words of a text are the parts of its lower case between single spaces, so
two spaces in a row, or an empty text, give an empty word.  A record is searched
through the fields that are configured for search: their values are shown as text
and put side by side, in the order of the record.  A record matches a phrase if it
has one of the words of the phrase.
-/

namespace RecordLog

/-- The separator of words. -/
def wordSeparator : CodePoint := ' '

/-- The words of a text. -/
def Text.words (t : Text) : List Text :=
  splitOn wordSeparator t.lowercase

mutual

/-- A value as it is searched. -/
def Json.searchText : Json → Text
  | .null => []
  | .bool true => "true"
  | .bool false => "false"
  | .float x =>
    match x.toInt? with
    | some n => Text.ofInt n
    | none => x.render Json.displayWords
  | .arr items => joined "," (Json.searchTexts items)
  | .obj members => Json.write .unicode (.obj members)
  | .int n => Text.ofInt n
  | .str t => t

/-- Items as they are searched. -/
def Json.searchTexts : List Json → List Text
  | [] => []
  | v :: later => Json.searchText v :: Json.searchTexts later

end

namespace Record

/-- The text of a record that is searched. -/
def searchText (textFields : List Text) (r : Record) : Text :=
  joined [wordSeparator]
    ((r.filter fun (k, _) => k.isOneOf textFields).map fun (_, v) => v.searchText)

/-- Whether a record has one of the given words. -/
def hasWord (textFields : List Text) (wanted : List Text) (r : Record) : Bool :=
  (Text.words (searchText textFields r)).any (·.isOneOf wanted)

/-- The records that match a phrase, in their order. -/
def search (textFields : List Text) (phrase : Text) (rs : List Record) : List Record :=
  rs.filter (hasWord textFields (Text.words phrase))

end Record

end RecordLog
