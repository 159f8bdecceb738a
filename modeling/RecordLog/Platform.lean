import RecordLog.Failure
import RecordLog.Settings.Environment
import RecordLog.Text.Utf8

/-!
# Platforms

A platform is what the program finds around it and does not decide itself: the variables
of its environment, the home directories that the system knows, the reader of YAML, and
what standard output can take.  The library speaks of every platform.

The reader of YAML is given a decoded text and gives a document, or nothing if the text is
not YAML.  Of the documents of YAML only those are meant that are JSON values; dates, binary
data, sets and keys that are no texts are left out.

A path may begin with a tilde.  Alone, or before a slash, it stands for the home directory
that the environment names, or else for the one that the system knows of the user who runs
the program; with a name, for the home directory of the user with this name.  Where no
home directory is known, the tilde stands for itself.
-/

namespace RecordLog

/-- What the program finds around it. -/
structure Platform where
  environment : Environment
  /-- The home directory of the user who runs the program, if the system knows one. -/
  ownHome : Option Text
  /-- The home directories of users by name, as far as the system knows them. -/
  homeOf : Text → Option Text
  /-- The document that a text of YAML holds. -/
  readYaml : Text → Option Json
  /-- Whether standard output can take a text. -/
  prints : Text → Bool

namespace Platform

/-- A platform with an environment, of which nothing else is known, and whose output takes
every text. -/
def ofEnvironment (env : Environment) : Platform :=
  ⟨env, none, fun _ => none, fun _ => none, fun _ => true⟩

variable (platform : Platform)

/-! ### Home directories -/

/-- The variable that names the home directory. -/
def homeVariable : Text := "HOME"

/-- The home directory that the tilde alone stands for. -/
def home? : Option Text :=
  (platform.environment.get? homeVariable).or platform.ownHome

/-- A home directory with the rest of a path; slashes at its end are dropped. -/
def joinHome (home rest : Text) : Text :=
  match Text.dropTrailing (· = CodePoint.ofChar '/') home ++ rest with
  | [] => "/"
  | t => t

/-- A path without its tilde, if the home directory is known that the tilde stands for.  The
system can be asked only for names that it can be given. -/
def homeExpanded (t : Text) : Outcome Text :=
  match t with
  | [] => .ok []
  | c :: after =>
    if c = CodePoint.ofChar '~' then
      let rest := after.dropWhile (· != CodePoint.ofChar '/')
      match after.takeWhile (· != CodePoint.ofChar '/') with
      | [] => .ok ((platform.home?.map (joinHome · rest)).getD t)
      | user =>
        if Text.isSystemText user then
          .ok (((platform.homeOf user).map (joinHome · rest)).getD t)
        else .error .malformed
    else .ok t

/-! ### Files of settings -/

/-- A text in which every end of a line is a line feed. -/
def withLineFeeds : Text → Text
  | [] => []
  | [c] => [if c = CodePoint.ofChar '\r' then '\n' else c]
  | c :: d :: t =>
    if c = CodePoint.ofChar '\r' then
      if d = CodePoint.ofChar '\n' then '\n' :: withLineFeeds t
      else '\n' :: withLineFeeds (d :: t)
    else c :: withLineFeeds (d :: t)

/-- The document that the content of a file of settings holds. -/
def readDocument (content : Octets) : Outcome Json :=
  match Text.decodeUtf8 content with
  | .error _ => .error .malformed
  | .ok t =>
    match platform.readYaml (withLineFeeds t) with
    | some document => .ok document
    | none => .error .notYaml

/-! ### Laws -/

/-- A path that does not begin with a tilde stays as it is. -/
theorem homeExpanded_of_head?_ne {t : Text} (h : t.head? ≠ some (CodePoint.ofChar '~')) :
    platform.homeExpanded t = .ok t := by
  cases t with
  | nil => rfl
  | cons c after =>
      have hc : c ≠ CodePoint.ofChar '~' := fun hc => h (congrArg some hc)
      rw [homeExpanded, if_neg hc]

/-- A path is expanded, unless the system cannot be given it. -/
theorem homeExpanded_cases (t : Text) :
    (∃ expanded, platform.homeExpanded t = .ok expanded) ∨
      t.isSystemText = false ∧ platform.homeExpanded t = .error .malformed := by
  cases t with
  | nil => exact .inl ⟨_, rfl⟩
  | cons c after =>
      rw [homeExpanded]
      split
      · dsimp only
        split
        · exact .inl ⟨_, rfl⟩
        · split
          · exact .inl ⟨_, rfl⟩
          · next huser =>
              refine .inr ⟨Bool.eq_false_iff.mpr fun hsystem => huser ?_, rfl⟩
              rw [Text.isSystemText, List.all_eq_true] at hsystem ⊢
              exact fun d hd => hsystem d (List.mem_cons_of_mem c (List.takeWhile_subset _ hd))
      · exact .inl ⟨_, rfl⟩

/-- Every path that the system can be given is expanded. -/
theorem exists_homeExpanded {t : Text} (h : t.isSystemText = true) :
    ∃ expanded, platform.homeExpanded t = .ok expanded := by
  rcases platform.homeExpanded_cases t with hexpanded | ⟨hnot, _⟩
  · exact hexpanded
  · rw [h] at hnot
    cases hnot

end Platform

end RecordLog
