import RecordLog.Service

/-!
# Well-formed entries

An entry of a database is well formed if its path is a text, its text fields are a text or a
list where they are given, and the data directory is a text.  Such an entry can be opened
(`openDatabase_of_configures`): whatever it says about strictness is taken for yes or no, and
nothing else can fail.  The one exception is a path that names the home directory of a user
with a name that the system cannot be given.
-/

namespace RecordLog

namespace Section

/-- Text fields are given as a text or as a list, or are not given. -/
def ListsFields : Json → Prop
  | .null => True
  | .str _ => True
  | .arr _ => True
  | _ => False

/-- Settings hold a well-formed entry for the database with a name. -/
structure Configures (s : Section) (name : Text) (entry : Section) : Prop where
  named : ∃ entries, s.databasesValue = .obj entries ∧
    Members.get? entries name = some (.obj entry)
  path : ∃ c later, Members.getOrNull entry "path" = .str (c :: later)
  textFields : ListsFields (Members.getOrNull entry "text_fields")
  dataDir : s.read "data_dir" = .null ∨ ∃ dir, s.read "data_dir" = .str dir

/-- The path of an entry is a text that the system can be given. -/
def GivesPath (entry : Section) : Prop :=
  ∃ t, Members.getOrNull entry "path" = .str t ∧ t.isSystemText = true

variable {s : Section} {name : Text} {entry : Section}

/-- A well-formed entry is found by its name. -/
theorem entry?_of_configures (h : s.Configures name entry) : s.entry? name = .ok (some entry) := by
  obtain ⟨entries, hentries, hentry⟩ := h.named
  obtain ⟨c, later, hpath⟩ := h.path
  have htruthy : (Members.getOrNull entry "path").truthy = true := by rw [hpath]; rfl
  simp only [hentries, entry?, hentry, htruthy, if_true]

/-- The data directory of settings is the one they name, or else the usual one. -/
theorem readOr_dataDir (h : s.Configures name entry) :
    ∃ dir s', s.readOr "data_dir" usualDataDir = (.str dir, s') := by
  rw [readOr]
  rcases h.dataDir with hnull | ⟨dir, hdir⟩
  · rw [hnull]
    exact ⟨_, _, rfl⟩
  · rw [hdir]
    exact ⟨dir, s, rfl⟩

/-- The path of a well-formed entry is found, if the system can be given it. -/
theorem resolvePath_of_configures (h : s.Configures name entry) (platform : Platform) :
    (∃ path s', s.resolvePath platform entry = (.ok path, s')) ∨
      ¬ entry.GivesPath ∧ ∃ s', s.resolvePath platform entry = (.error .malformed, s') := by
  obtain ⟨c, later, hpath⟩ := h.path
  rw [resolvePath, hpath]
  rcases platform.homeExpanded_cases (Json.str (c :: later)).plain with
    ⟨expanded, hexpanded⟩ | ⟨hnot, hrefused⟩
  · left
    simp only [hexpanded]
    split
    · exact ⟨_, _, rfl⟩
    · obtain ⟨dir, s', hdir⟩ := readOr_dataDir h
      rw [hdir]
      exact ⟨_, _, rfl⟩
  · right
    refine ⟨?_, s, ?_⟩
    · rintro ⟨t, ht, hsystem⟩
      obtain rfl := Json.str.inj (hpath.symm.trans ht)
      exact Bool.false_ne_true (hnot.symm.trans hsystem)
    · rw [hrefused]

/-- Text fields that are given as a text or a list can be read. -/
theorem textFieldsOf_of_lists {v : Json} (h : ListsFields v) (name : Text) :
    ∃ fields, textFieldsOf name v = .ok fields := by
  cases v with
  | null => exact ⟨_, rfl⟩
  | str t => exact ⟨_, rfl⟩
  | arr items => exact ⟨_, rfl⟩
  | bool | int | float | obj => exact h.elim

/-- A well-formed entry gives a database, if the system can be given its path. -/
theorem database_of_configures (h : s.Configures name entry) (platform : Platform) :
    (∃ found s', s.database platform name = (.ok (some found), s')) ∨
      ¬ entry.GivesPath ∧ ∃ s', s.database platform name = (.error .malformed, s') := by
  rcases resolvePath_of_configures h platform with ⟨path, s', hpath⟩ | ⟨hnot, s', hpath⟩
  · obtain ⟨fields, hfields⟩ := textFieldsOf_of_lists h.textFields name
    left
    simp only [database, entry?_of_configures h, resolve, hpath, hfields]
    exact ⟨_, _, rfl⟩
  · right
    refine ⟨hnot, s', ?_⟩
    simp only [database, entry?_of_configures h, resolve, hpath]
    rfl

end Section

/-- **A database with a well-formed entry can be opened**, if the system can be given its
path. -/
theorem Service.openDatabase_of_configures {s : Section} {name : Text} {entry : Section}
    (h : s.Configures name entry) (platform : Platform) (disk : Disk) (allowPaths : Bool) :
    (∃ db s', openDatabase s platform disk name allowPaths = (.ok db, s')) ∨
      ¬ entry.GivesPath ∧
        ∃ s', openDatabase s platform disk name allowPaths = (.error .malformed, s') := by
  rcases Section.database_of_configures h platform with
    ⟨found, s', hdatabase⟩ | ⟨hnot, s', hdatabase⟩
  · left
    rw [openDatabase, hdatabase]
    exact ⟨_, _, rfl⟩
  · right
    rw [openDatabase, hdatabase]
    exact ⟨hnot, _, rfl⟩

end RecordLog
