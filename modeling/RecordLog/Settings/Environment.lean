import RecordLog.Settings.Section
import RecordLog.Text.Lowercase
import RecordLog.Number.Numeral

/-!
# Settings from the environment

A variable whose name begins with `LOGQUERY_` is a setting.  The rest of its name,
in lower case, is the path of the setting, with two underscores between keys.
Later variables write over earlier ones, except that nothing can be put below a
setting that is a value already.

Variables are text.  The words true and false become booleans and plain
numerals become numbers; all other text stays as it is.
-/

namespace RecordLog

/-- The variables of an environment, in order. -/
abbrev Environment := List (Text × Text)

namespace Environment

/-- The value of a variable. -/
def get? (env : Environment) (name : Text) : Option Text :=
  env.lookup name

/-- Sets a variable, in its place if it is there. -/
def set : Environment → Text → Text → Environment
  | [], name, value => [(name, value)]
  | (n, v) :: later, name, value =>
    if n = name then (n, value) :: later else (n, v) :: set later name value

end Environment

/-- The beginning of the names of variables that are settings. -/
def settingMark : Text := "LOGQUERY_"

/-- The variable that names the file of settings; it is no setting. -/
def settingsFileVariable : Text := "LOGQUERY_CONFIG"

/-- The value that the text of a variable stands for. -/
def scalarValue (raw : Text) : Outcome Json :=
  let trimmed := raw.trimmed
  let word := trimmed.lowercase
  if word = Text.ofString "true" then .ok (.bool true)
  else if word = Text.ofString "false" then .ok (.bool false)
  else
    match Numeral.shape? trimmed with
    | none => .ok (.str raw)
    | some .whole =>
      match Numeral.toInt? raw with
      | some n => .ok (.int n)
      | none => .error .malformed
    | some .fraction =>
      match Numeral.toDouble? raw with
      | some x => .ok (.float x)
      | none => .error .malformed

/-- The parts of a text between pairs of underscores. -/
def underscoreParts : Text → List Text
  | [] => [[]]
  | [c] => [[c]]
  | c :: d :: t =>
    if c = CodePoint.ofChar '_' ∧ d = CodePoint.ofChar '_' then [] :: underscoreParts t
    else consFirst c (underscoreParts (d :: t))

/-- The keys of the setting that a variable sets, if it sets one. -/
def settingKeys? (name : Text) : Option (List Text) :=
  if name = settingsFileVariable then none
  else (Text.dropStart? settingMark name).map fun rest => underscoreParts rest.lowercase

namespace Section

/-- Puts the value of a variable at a path of keys, through sections only. -/
def plant : Section → List Text → Text → Outcome Section
  | s, [], _ => .ok s
  | s, [key], raw =>
    match scalarValue raw with
    | .ok value => .ok (Members.set s key value)
    | .error e => .error e
  | s, key :: next :: keys, raw =>
    match Members.get? s key with
    | none => (plant [] (next :: keys) raw).map fun t => Members.set s key (.obj t)
    | some (.obj t) => (plant t (next :: keys) raw).map fun t => Members.set s key (.obj t)
    | some _ =>
      if keys = [] then
        match scalarValue raw with
        | .ok _ => .error .unsuitable
        | .error e => .error e
      else .error .memberless

/-- Adds the settings of variables, in order. -/
def plantAll : Section → Environment → Outcome Section
  | s, [] => .ok s
  | s, (name, raw) :: later =>
    match settingKeys? name with
    | none => plantAll s later
    | some keys =>
      match plant s keys raw with
      | .error e => .error e
      | .ok s => plantAll s later

/-- The settings that an environment makes. -/
def ofEnvironment (env : Environment) : Outcome Section :=
  plantAll [] env

end Section

end RecordLog
