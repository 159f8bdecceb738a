import RecordLog.Proofs.Settings.Precedence
import RecordLog.Settings.Catalog

/-!
# A database in variables

A path of keys is that of a variable: the keys are joined with two underscores after
`LOGQUERY_` (`variableName`), and they are found again in lower case
(`settingKeys?_variableName`).

Two variables are enough for a database, one for its path and one for its text fields.  What
the database is depends on the values that their texts stand for (`database_eq`).
`database_of_variables` says when it is the one that the texts spell: a text of fields that
stays no text is refused, and a path that stands for no or for zero is taken for none.  The
path is expanded as the platform knows its home directories; a path that is a numeral has no
tilde (`homeExpanded_plain`).
-/

namespace RecordLog

/-! ### Names of variables -/

/-- What stands between two keys in the name of a variable. -/
def underscores : Text := [CodePoint.ofChar '_', CodePoint.ofChar '_']

/-- The name of the variable for a path of keys. -/
def variableName (keys : List Text) : Text :=
  settingMark ++ joined underscores keys

/-- A text that ends where two underscores follow it. -/
def IsSegment (t : Text) : Prop :=
  ¬ underscores <:+: t ++ [CodePoint.ofChar '_']

instance (t : Text) : Decidable (IsSegment t) :=
  inferInstanceAs (Decidable (¬ _))

/-- The end of a segment is a segment. -/
theorem IsSegment.tail {c : CodePoint} {t : Text} (h : IsSegment (c :: t)) : IsSegment t :=
  fun hwithin => h (hwithin.trans (List.infix_cons List.infix_rfl))

/-- Unless two underscores stand at the front, the first code point belongs to the first part. -/
theorem underscoreParts_cons {c d : CodePoint} {t : Text}
    (h : ¬ (c = CodePoint.ofChar '_' ∧ d = CodePoint.ofChar '_')) :
    underscoreParts (c :: d :: t) = consFirst c (underscoreParts (d :: t)) := by
  rw [underscoreParts, if_neg h]

/-- A segment before two underscores is a part. -/
theorem underscoreParts_append {p : Text} (h : IsSegment p) (t : Text) :
    underscoreParts (p ++ (underscores ++ t)) = p :: underscoreParts t := by
  induction p with
  | nil => rfl
  | cons c p ih =>
      obtain ⟨d, later, hp⟩ : ∃ d later, p ++ [CodePoint.ofChar '_'] = d :: later :=
        List.exists_cons_of_ne_nil (List.concat_ne_nil _ p)
      have hnot : ¬ (c = CodePoint.ofChar '_' ∧ d = CodePoint.ofChar '_') := by
        rintro ⟨rfl, rfl⟩
        exact h ⟨[], later, by rw [List.cons_append, hp]; rfl⟩
      have hrest : p ++ (underscores ++ t) = d :: (later ++ CodePoint.ofChar '_' :: t) := by
        rw [← List.cons_append, ← hp, List.append_assoc]
        rfl
      have ih' := ih h.tail
      rw [hrest] at ih'
      rw [List.cons_append, hrest, underscoreParts_cons hnot, ih']
      rfl

/-- A segment is a single part. -/
theorem underscoreParts_of_segment {p : Text} (h : IsSegment p) : underscoreParts p = [p] := by
  induction p with
  | nil => rfl
  | cons c p ih =>
      cases p with
      | nil => rfl
      | cons d p =>
          have hnot : ¬ (c = CodePoint.ofChar '_' ∧ d = CodePoint.ofChar '_') := by
            rintro ⟨rfl, rfl⟩
            exact h ⟨[], p ++ [CodePoint.ofChar '_'], rfl⟩
          rw [underscoreParts_cons hnot, ih h.tail]
          rfl

theorem joined_cons_cons (p q : Text) (ps : List Text) :
    joined underscores (p :: q :: ps) = p ++ (underscores ++ joined underscores (q :: ps)) := by
  rw [joined, List.append_assoc]

/-- Segments that were joined are found again. -/
theorem underscoreParts_joined {ps : List Text} (hne : ps ≠ []) (h : ∀ p ∈ ps, IsSegment p) :
    underscoreParts (joined underscores ps) = ps := by
  induction ps with
  | nil => exact absurd rfl hne
  | cons p ps ih =>
      obtain ⟨hp, hps⟩ := List.forall_mem_cons.mp h
      cases ps with
      | nil => exact underscoreParts_of_segment hp
      | cons q ps =>
          rw [joined_cons_cons, underscoreParts_append hp, ih (List.cons_ne_nil q ps) hps]

namespace Text

/-- An underscore ends the search for a cased neighbour. -/
theorem isBlocker_underscore : IsBlocker (CodePoint.ofChar '_') :=
  ⟨by decide +kernel, by decide +kernel⟩

/-- The two sides of two underscores have their lower case each on its own. -/
theorem lowercase_append_underscores (s t : Text) :
    lowercase (s ++ (underscores ++ t)) = lowercase s ++ (underscores ++ lowercase t) := by
  have hself : lowercaseAt [] (CodePoint.ofChar '_') [] = [CodePoint.ofChar '_'] := by
    decide +kernel
  have hone : ∀ s t : Text, lowercase (s ++ CodePoint.ofChar '_' :: t) =
      lowercase s ++ CodePoint.ofChar '_' :: lowercase t := by
    intro s t
    rw [lowercase_append_blocker isBlocker_underscore, hself, List.append_assoc]
    rfl
  have hpair : ∀ u : Text, underscores ++ u = CodePoint.ofChar '_' :: CodePoint.ofChar '_' :: u :=
    fun _ => rfl
  have hsecond := hone [] t
  rw [List.nil_append] at hsecond
  rw [hpair, hpair, hone, hsecond]
  rfl

/-- Keys that are joined have their lower case each on its own. -/
theorem lowercase_joined (ps : List Text) :
    lowercase (joined underscores ps) = joined underscores (ps.map lowercase) := by
  induction ps with
  | nil => rfl
  | cons p ps ih =>
      cases ps with
      | nil => rfl
      | cons q ps =>
          rw [joined_cons_cons, lowercase_append_underscores, ih]
          exact (joined_cons_cons _ _ _).symm

end Text

/-- The name of a variable for several keys is not the one that names a file. -/
theorem variableName_ne {p q : Text} (ps : List Text) :
    variableName (p :: q :: ps) ≠ settingsFileVariable := by
  intro h
  have hfile : settingsFileVariable = settingMark ++ Text.ofString "CONFIG" := rfl
  have hjoined := List.append_cancel_left (h.trans hfile)
  have hmem : CodePoint.ofChar '_' ∈ Text.ofString "CONFIG" := by
    rw [← hjoined, joined_cons_cons]
    exact List.mem_append_right _ List.mem_cons_self
  exact absurd hmem (by decide)

/-- The keys of a variable are found again, in lower case. -/
theorem settingKeys?_variableName {p q : Text} {ps : List Text}
    (h : ∀ key ∈ p :: q :: ps, IsSegment key.lowercase) :
    settingKeys? (variableName (p :: q :: ps)) = some ((p :: q :: ps).map Text.lowercase) := by
  have hparts : underscoreParts (joined underscores ((p :: q :: ps).map Text.lowercase)) =
      (p :: q :: ps).map Text.lowercase :=
    underscoreParts_joined (List.cons_ne_nil _ _) (List.forall_mem_map.mpr h)
  rw [settingKeys?, if_neg (variableName_ne ps), variableName,
    Text.dropStart?_eq_some_iff.mpr rfl, Option.map_some, Text.lowercase_joined, hparts]

/-! ### Environments -/

/-- A variable whose name does not start with the mark makes no setting. -/
theorem settingKeys?_eq_none {name : Text} (h : ¬ settingMark <+: name) :
    settingKeys? name = none := by
  rw [settingKeys?]
  split
  · rfl
  · cases hrest : Text.dropStart? settingMark name with
    | none => rfl
    | some rest => exact absurd ⟨rest, Text.dropStart?_eq_some_iff.mp hrest⟩ h

namespace Environment

/-- Only the marked variables make settings. -/
theorem settings_filter (env : Environment) :
    settings (env.filter fun v => settingMark <+: v.1) = env.settings := by
  rw [settings, List.filterMap_filter]
  refine List.filterMap_congr ?_
  intro v _
  split
  · rfl
  · next hmark => rw [settingKeys?_eq_none fun h => hmark (decide_eq_true h), Option.map_none]

/-- The value of a variable is in the environment. -/
theorem mem_of_get? {env : Environment} {name value : Text} (h : env.get? name = some value) :
    (name, value) ∈ env := by
  obtain ⟨before, after, rfl, _⟩ := List.lookup_eq_some_iff.mp h
  exact List.mem_append_right _ List.mem_cons_self

end Environment

/-! ### A database of given settings -/

namespace Section

variable {s : Section} {name dir : Text}

/-- Where an expanded path leads, from a data directory. -/
def placed (dir expanded : Text) : Path :=
  let path := Path.ofText expanded
  if path.isAbsolute then path else (Path.ofText dir).append path

/-- The path of an entry is placed in the data directory. -/
theorem resolvePath_eq {platform : Platform} {entry : Section} {expanded : Text}
    (hexpanded : platform.homeExpanded (Members.getOrNull entry "path").plain = .ok expanded)
    (hdir : s.read "data_dir" = .str dir) :
    s.resolvePath platform entry = (.ok (placed dir expanded), s) := by
  have hread : s.readOr "data_dir" usualDataDir = (.str dir, s) :=
    readOr_of_read hdir Json.noConfusion usualDataDir
  rw [resolvePath, hexpanded, placed]
  dsimp only
  split
  · rfl
  · rw [hread]

/-- The entry of a database that has a plain path. -/
theorem exists_entry (hplain : (s.find ["databases", name, "path"]).isPlain = true) :
    ∃ entry, (∀ key, Members.getOrNull entry key = s.find ["databases", name, key]) ∧
      s.entry? name =
        .ok (if (s.find ["databases", name, "path"]).truthy then some entry else none) := by
  have hat := (find_eq_iff hplain).mp rfl
  obtain ⟨entries, hentries⟩ : ∃ entries, Members.get? s "databases" = some (.obj entries) := by
    rw [← Json.at?_obj_singleton]
    exact Json.exists_obj_of_at?_append (List.cons_ne_nil name _) hat
  obtain ⟨entry, hentry⟩ : ∃ entry, Members.get? entries name = some (.obj entry) := by
    rw [Json.at?_obj_cons, hentries, Option.bind_some] at hat
    rw [← Json.at?_obj_singleton]
    exact Json.exists_obj_of_at?_append (List.cons_ne_nil _ []) hat
  have hfind : ∀ key, Members.getOrNull entry key = s.find ["databases", name, key] := by
    intro key
    rw [find_cons_of_obj hentries, find_cons_of_obj hentry]
    rfl
  have hvalue : s.databasesValue = .obj entries := by
    have hread : s.read "databases" = .obj entries := by
      have hkeys : dottedKeys "databases" = [Text.ofString "databases"] := rfl
      rw [read, hkeys, find_eq, Json.at?_obj_singleton, hentries, Option.getD_some]
    have htruthy : (Json.obj entries).truthy = true := by
      cases entries with
      | nil => cases hentry
      | cons kv later => rfl
    rw [databasesValue, hread, if_pos htruthy]
  refine ⟨entry, hfind, ?_⟩
  rw [← hfind, entry?, hvalue]
  dsimp only
  rw [hentry]

/-- The database whose path is a plain value. -/
theorem database_eq {strict : Bool} {platform : Platform} {expanded : Text}
    (hplain : (s.find ["databases", name, "path"]).isPlain = true)
    (hexpanded : platform.homeExpanded (s.find ["databases", name, "path"]).plain = .ok expanded)
    (hstrict : s.find ["databases", name, "strict_ids"] = .null)
    (hdir : s.read "data_dir" = .str dir) (husual : s.read "query.strict_ids" = .bool strict) :
    (s.database platform name).1 =
      if (s.find ["databases", name, "path"]).truthy then
        (textFieldsOf name (s.find ["databases", name, "text_fields"])).map fun fields =>
          some ⟨name, ⟨placed dir expanded, fields, strict⟩⟩
      else .ok none := by
  obtain ⟨entry, hfind, hentry⟩ := exists_entry hplain
  have hstrictness : s.resolveStrictness entry = (strict, s) := by
    have hread : s.readOr "query.strict_ids" (.bool false) = (.bool strict, s) :=
      readOr_of_read husual Json.noConfusion (.bool false)
    rw [resolveStrictness, hfind, hstrict]
    dsimp only
    rw [usualStrictness, hread]
    rfl
  rw [database, hentry]
  by_cases htruthy : (s.find ["databases", name, "path"]).truthy = true
  · simp only [if_pos htruthy]
    rw [← hfind] at hexpanded
    rw [resolve, resolvePath_eq hexpanded hdir]
    dsimp only
    rw [hstrictness, hfind]
    cases textFieldsOf name (s.find ["databases", name, "text_fields"]) <;> rfl
  · simp only [if_neg htruthy]

end Section

/-! ### A database in variables -/

/-- The variables for the path and the text fields of a database. -/
def databaseVariables (spelled path fields : Text) : Environment :=
  [(variableName ["DATABASES", spelled, "PATH"], path),
    (variableName ["DATABASES", spelled, "TEXT_FIELDS"], fields)]

/-- The two variables of a database make two settings below its name. -/
theorem settings_databaseVariables {spelled : Text} (h : IsSegment spelled.lowercase)
    (path fields : Text) :
    (databaseVariables spelled path fields).settings =
      [⟨["databases", spelled.lowercase, "path"], path⟩,
        ⟨["databases", spelled.lowercase, "text_fields"], fields⟩] := by
  have hkeys : ∀ last : Text, IsSegment last.lowercase →
      settingKeys? (variableName ["DATABASES", spelled, last]) =
        some [Text.ofString "databases", spelled.lowercase, last.lowercase] := by
    intro last hlast
    have hdatabases : Text.lowercase "DATABASES" = "databases" := by decide +kernel
    rw [settingKeys?_variableName, List.map_cons, List.map_cons, List.map_singleton, hdatabases]
    simp only [List.forall_mem_cons, List.not_mem_nil, false_implies, implies_true, and_true]
    exact ⟨by decide +kernel, h, hlast⟩
  have hpath : Text.lowercase "PATH" = "path" := by decide +kernel
  have hfields : Text.lowercase "TEXT_FIELDS" = "text_fields" := by decide +kernel
  rw [Environment.settings, databaseVariables, List.filterMap_cons, List.filterMap_cons,
    hkeys "PATH" (by decide +kernel), hkeys "TEXT_FIELDS" (by decide +kernel), hpath, hfields]
  rfl

namespace Settings

variable {platform : Platform} {disk : Disk} {spelled path fields : Text}

/-- With these variables alone, and no file, what is read is what their texts stand for. -/
theorem load_databaseVariables
    (hvariables : (platform.environment.filter fun v => settingMark <+: v.1).Perm
      (databaseVariables spelled path fields))
    (hname : IsSegment spelled.lowercase)
    (hfile : disk.isFile (Path.ofText usualFile) = .ok false) :
    (∃ e, (scalarValue path = .error e ∨ scalarValue fields = .error e) ∧
      load platform disk none = .error e) ∨
    ∃ s, load platform disk none = .ok s ∧
      scalarValue path = .ok (s.find ["databases", spelled.lowercase, "path"]) ∧
      scalarValue fields = .ok (s.find ["databases", spelled.lowercase, "text_fields"]) ∧
      s.find ["databases", spelled.lowercase, "strict_ids"] = .null ∧
      s.read "data_dir" = usualDataDir ∧ s.read "query.strict_ids" = .bool false := by
  have hsettings : platform.environment.settings.Perm
      (databaseVariables spelled path fields).settings := by
    rw [← Environment.settings_filter]
    exact hvariables.filterMap _
  rw [settings_databaseVariables hname] at hsettings
  have hload : load platform disk none = layered platform.environment (.obj []) := by
    have hnone : platform.environment.get? settingsFileVariable = none := by
      rw [Option.eq_none_iff_forall_ne_some]
      intro value hvalue
      have hmarked : (settingsFileVariable, value) ∈ databaseVariables spelled path fields :=
        hvariables.mem_iff.mp (List.mem_filter.mpr ⟨Environment.mem_of_get? hvalue, rfl⟩)
      rcases List.mem_pair.mp hmarked with heq | heq
      · exact variableName_ne _ (Prod.mk.inj heq).1.symm
      · exact variableName_ne _ (Prod.mk.inj heq).1.symm
    simp only [load, filePath, hnone, Option.getD_none, fileLayer, hfile]
  have hother : Apart ["databases", spelled.lowercase, "path"]
      ["databases", spelled.lowercase, "text_fields"] :=
    Apart.append_left (p := [Text.ofString "path"]) (by decide) ["databases", spelled.lowercase]
  have hapart : platform.environment.settings.Pairwise fun a b => Apart a.path b.path :=
    (hsettings.pairwise_iff fun h => h.symm).mpr (List.pairwise_pair.mpr hother)
  rw [hload]
  rcases layered_find hapart [] with ⟨a, ha, e, he, hfails⟩ | ⟨s, hs, hvalues, hbelow⟩
  · left
    refine ⟨e, ?_, hfails⟩
    rcases List.mem_pair.mp (hsettings.mem_iff.mp ha) with rfl | rfl
    · exact Or.inl he
    · exact Or.inr he
  · right
    have hread : ∀ path, path ≠ [] →
        Apart ["databases", spelled.lowercase, "path"] path →
        Apart ["databases", spelled.lowercase, "text_fields"] path →
        s.find path = Section.builtIn.find path := by
      intro path hpath hfirst hsecond
      refine hbelow path hpath ?_
      intro a ha
      rcases List.mem_pair.mp (hsettings.mem_iff.mp ha) with rfl | rfl
      · exact hfirst
      · exact hsecond
    refine ⟨s, hs, hvalues _ (hsettings.mem_iff.mpr List.mem_cons_self),
      hvalues _ (hsettings.mem_iff.mpr (List.mem_cons_of_mem _ List.mem_cons_self)), ?_, ?_, ?_⟩
    · exact hread _ (List.cons_ne_nil _ _)
        (Apart.append_left (p := [Text.ofString "path"]) (by decide) ["databases", _])
        (Apart.append_left (p := [Text.ofString "text_fields"]) (by decide) ["databases", _])
    · exact hread _ (List.cons_ne_nil _ _) (Apart.cons_of_ne (by decide) _ _)
        (Apart.cons_of_ne (by decide) _ _)
    · exact hread _ (List.cons_ne_nil _ _) (Apart.cons_of_ne (by decide) _ _)
        (Apart.cons_of_ne (by decide) _ _)

/-- A numeral does not begin with a tilde. -/
theorem homeExpanded_of_subset_numberMarks (platform : Platform) {t : Text}
    (h : t ⊆ Json.numberMarks) : platform.homeExpanded t = .ok t := by
  refine platform.homeExpanded_of_head?_ne fun hhead => ?_
  have hmark : CodePoint.ofChar '~' ∈ Json.numberMarks := h (List.mem_of_mem_head? hhead)
  exact absurd hmark (by decide)

/-- The spelling of what the text of a variable stands for has a tilde at its front only if it
is the text itself. -/
theorem homeExpanded_plain (platform : Platform) (hpath : ¬ StaysText path) {v : Json}
    (hv : scalarValue path = .ok v) : platform.homeExpanded v.plain = .ok v.plain := by
  rcases scalarValue_cases hv with ⟨hstays, _⟩ | ⟨_, ⟨b, rfl⟩ | ⟨n, rfl⟩ | ⟨x, rfl⟩⟩
  · exact absurd hstays hpath
  · cases b <;> rfl
  · exact homeExpanded_of_subset_numberMarks platform (Json.ofInt_subset n)
  · cases x with
    | nan => rfl
    | infinite negative => cases negative <;> rfl
    | finite negative m =>
        exact homeExpanded_of_subset_numberMarks platform
          (Json.render_finite_subset Json.displayWords negative m)

/-- The path that the text of a variable stands for can be expanded. -/
theorem exists_homeExpanded_plain (platform : Platform) (hsystem : path.isSystemText = true)
    {v : Json} (hv : scalarValue path = .ok v) :
    ∃ expanded, platform.homeExpanded v.plain = .ok expanded := by
  by_cases hpath : StaysText path
  · obtain rfl := Except.ok.inj ((scalarValue_of_staysText hpath).symm.trans hv)
    exact platform.exists_homeExpanded hsystem
  · exact ⟨v.plain, homeExpanded_plain platform hpath hv⟩

/-- The database is what the values make of it that the texts stand for. -/
theorem database_of_values
    (hvariables : (platform.environment.filter fun v => settingMark <+: v.1).Perm
      (databaseVariables spelled path fields))
    (hname : IsSegment spelled.lowercase)
    (hfile : disk.isFile (Path.ofText usualFile) = .ok false)
    {v w : Json} (hv : scalarValue path = .ok v) (hw : scalarValue fields = .ok w)
    {expanded : Text} (hexpanded : platform.homeExpanded v.plain = .ok expanded) :
    ∃ s, load platform disk none = .ok s ∧
      (s.database platform spelled.lowercase).1 =
        if v.truthy then
          (textFieldsOf spelled.lowercase w).map fun textFields =>
            some ⟨spelled.lowercase, ⟨Section.placed "./data" expanded, textFields, false⟩⟩
        else .ok none := by
  rcases load_databaseVariables hvariables hname hfile with
    ⟨e, he | he, _⟩ | ⟨s, hs, hpath, hfields, hstrict, hdir, husual⟩
  · cases hv.symm.trans he
  · cases hw.symm.trans he
  · obtain rfl := Except.ok.inj (hv.symm.trans hpath)
    obtain rfl := Except.ok.inj (hw.symm.trans hfields)
    exact ⟨s, hs, Section.database_eq (isPlain_of_scalarValue hv) hexpanded hstrict hdir husual⟩

/-- The text fields that a text lists. -/
def fieldsIn (t : Text) : List Text :=
  ((splitOn (CodePoint.ofChar ',') t).map Text.trimmed).filter fun field => !field.isEmpty

/-- Text fields that stay text are those between the commas. -/
theorem textFieldsOf_of_staysText (h : StaysText fields) (name : Text) {w : Json}
    (hw : scalarValue fields = .ok w) : textFieldsOf name w = .ok (fieldsIn fields) := by
  obtain rfl := Except.ok.inj ((scalarValue_of_staysText h).symm.trans hw)
  rfl

/-- Text fields that become a scalar are refused. -/
theorem textFieldsOf_of_not_staysText (h : ¬ StaysText fields) (name : Text) {w : Json}
    (hw : scalarValue fields = .ok w) : textFieldsOf name w = .error (.textFields name w) := by
  rcases scalarValue_cases hw with ⟨hstays, _⟩ | ⟨_, ⟨b, rfl⟩ | ⟨n, rfl⟩ | ⟨x, rfl⟩⟩
  · exact absurd hstays h
  all_goals rfl

/-- **A database in two variables.**  If both texts stay texts, and the path is not empty, the
database has the text fields that they spell, and its path is the one spelled, expanded and
placed in the data directory.  In general the values decide that the texts stand for.  There is
no database if the value of the path counts as no; otherwise text fields that stay no text are
an error, and the path is the spelling of its value, in which there is nothing to expand if it
is no text.  Where a text stands for nothing, there are no settings.  The text of a variable is
always one that the system can be given. -/
theorem database_of_variables
    (hvariables : (platform.environment.filter fun v => settingMark <+: v.1).Perm
      (databaseVariables spelled path fields))
    (hsystem : path.isSystemText = true) (hname : IsSegment spelled.lowercase)
    (hfile : disk.isFile (Path.ofText usualFile) = .ok false) :
    let name := spelled.lowercase
    let entry (expanded : Text) : CatalogEntry :=
      ⟨name, ⟨Section.placed "./data" expanded, fieldsIn fields, false⟩⟩
    (path ≠ [] → StaysText path → StaysText fields →
      ∃ s expanded, load platform disk none = .ok s ∧
        platform.homeExpanded path = .ok expanded ∧
        (s.database platform name).1 = .ok (some (entry expanded))) ∧
    (∀ v w, scalarValue path = .ok v → scalarValue fields = .ok w →
      ∃ s expanded, load platform disk none = .ok s ∧
        platform.homeExpanded v.plain = .ok expanded ∧
        (¬ StaysText path → expanded = v.plain) ∧
        (v.truthy = false → (s.database platform name).1 = .ok none) ∧
        (v.truthy = true → ¬ StaysText fields →
          (s.database platform name).1 = .error (.textFields name w)) ∧
        (v.truthy = true → StaysText fields →
          (s.database platform name).1 = .ok (some (entry expanded)))) ∧
    ∀ e, scalarValue path = .error e ∨ scalarValue fields = .error e →
      ∃ e, load platform disk none = .error e := by
  intro name entry
  refine ⟨?_, ?_, ?_⟩
  · intro hne hpath hfields
    have hv := scalarValue_of_staysText hpath
    have hw := scalarValue_of_staysText hfields
    obtain ⟨expanded, hexpanded⟩ := exists_homeExpanded_plain platform hsystem hv
    obtain ⟨s, hs, hdatabase⟩ := database_of_values hvariables hname hfile hv hw hexpanded
    have htruthy : (Json.str path).truthy = true := by
      cases path with
      | nil => exact absurd rfl hne
      | cons c t => rfl
    refine ⟨s, expanded, hs, hexpanded, ?_⟩
    rw [hdatabase, if_pos htruthy, textFieldsOf_of_staysText hfields _ hw]
    rfl
  · intro v w hv hw
    obtain ⟨expanded, hexpanded⟩ := exists_homeExpanded_plain platform hsystem hv
    obtain ⟨s, hs, hdatabase⟩ := database_of_values hvariables hname hfile hv hw hexpanded
    refine ⟨s, expanded, hs, hexpanded, ?_, ?_, ?_, ?_⟩
    · intro hpath
      exact Except.ok.inj (hexpanded.symm.trans (homeExpanded_plain platform hpath hv))
    · intro hno
      rw [hdatabase, hno]
      rfl
    · intro htruthy hfields
      rw [hdatabase, if_pos htruthy, textFieldsOf_of_not_staysText hfields _ hw]
      rfl
    · intro htruthy hfields
      rw [hdatabase, if_pos htruthy, textFieldsOf_of_staysText hfields _ hw]
      rfl
  · intro e he
    rcases load_databaseVariables hvariables hname hfile with
      ⟨e', _, hfails⟩ | ⟨s, _, hpath, hfields, _⟩
    · exact ⟨e', hfails⟩
    · rcases he with he | he
      · cases he.symm.trans hpath
      · cases he.symm.trans hfields

/-- A database with two text fields and a relative path, and one below the home directory of a
user. -/
theorem database_of_variables_two_fields :
    let here := Platform.ofEnvironment (databaseVariables "ZOO" "zoo.log" "title, body,")
    let home : Platform :=
      { Platform.ofEnvironment (databaseVariables "ZOO" "~root/zoo.log" "title, body,") with
        homeOf := fun user => if user = Text.ofString "root" then some "/root" else none }
    let disk : Disk := ⟨[], []⟩
    let fields : List Text := ["title", "body"]
    (∃ s, load here disk none = .ok s ∧ (s.database here "zoo").1 =
      .ok (some ⟨"zoo", ⟨⟨.here, ["data", "zoo.log"]⟩, fields, false⟩⟩)) ∧
    ∃ s, load home disk none = .ok s ∧ (s.database home "zoo").1 =
      .ok (some ⟨"zoo", ⟨⟨.slash, ["root", "zoo.log"]⟩, fields, false⟩⟩) := by
  intro here home disk fields
  have hhere : (here.environment.filter fun v => settingMark <+: v.1).Perm here.environment := by
    decide +kernel
  have hhome : (home.environment.filter fun v => settingMark <+: v.1).Perm home.environment := by
    decide +kernel
  have hfile : disk.isFile (Path.ofText usualFile) = .ok false := by rfl
  have hname : Text.lowercase "ZOO" = "zoo" := by decide +kernel
  have hfields : fieldsIn "title, body," = fields := by decide +kernel
  have hrelative : Section.placed "./data" "zoo.log" = ⟨.here, ["data", "zoo.log"]⟩ := by
    decide +kernel
  have habsolute : Section.placed "./data" "/root/zoo.log" = ⟨.slash, ["root", "zoo.log"]⟩ := by
    decide +kernel
  constructor
  · obtain ⟨s, expanded, hs, hexpanded, hdatabase⟩ :=
      (database_of_variables hhere (by decide) (by decide +kernel) hfile).1
        (by decide) (by decide +kernel) (by decide +kernel)
    obtain rfl : expanded = Text.ofString "zoo.log" := (Except.ok.inj hexpanded).symm
    rw [hname] at hdatabase
    dsimp only at hdatabase
    rw [hrelative, hfields] at hdatabase
    exact ⟨s, hs, hdatabase⟩
  · obtain ⟨s, expanded, hs, hexpanded, hdatabase⟩ :=
      (database_of_variables hhome (by decide) (by decide +kernel) hfile).1
        (by decide) (by decide +kernel) (by decide +kernel)
    obtain rfl : expanded = Text.ofString "/root/zoo.log" := (Except.ok.inj hexpanded).symm
    rw [hname] at hdatabase
    dsimp only at hdatabase
    rw [habsolute, hfields] at hdatabase
    exact ⟨s, hs, hdatabase⟩

/-- A text field whose name is a numeral is refused, and a path that is zero is taken for
none. -/
theorem database_of_variables_numerals :
    let five := Platform.ofEnvironment (databaseVariables "ZOO" "zoo.log" "5")
    let zero := Platform.ofEnvironment (databaseVariables "ZOO" "0" "title")
    let disk : Disk := ⟨[], []⟩
    (∃ s, load five disk none = .ok s ∧
      (s.database five "zoo").1 = .error (.textFields "zoo" (.int 5))) ∧
    ∃ s, load zero disk none = .ok s ∧ (s.database zero "zoo").1 = .ok none := by
  intro five zero disk
  have hfives : (five.environment.filter fun v => settingMark <+: v.1).Perm five.environment := by
    decide +kernel
  have hzeros : (zero.environment.filter fun v => settingMark <+: v.1).Perm zero.environment := by
    decide +kernel
  have hfile : disk.isFile (Path.ofText usualFile) = .ok false := by rfl
  have hname : Text.lowercase "ZOO" = "zoo" := by decide +kernel
  have hlog : scalarValue "zoo.log" = .ok (.str "zoo.log") :=
    scalarValue_of_staysText (by decide +kernel)
  have htitle : scalarValue "title" = .ok (.str "title") :=
    scalarValue_of_staysText (by decide +kernel)
  have hfive : scalarValue "5" = .ok (.int 5) := rfl
  have hzero : scalarValue "0" = .ok (.int 0) := rfl
  have hlogPath : five.homeExpanded "zoo.log" = .ok "zoo.log" := rfl
  have hzeroPath : zero.homeExpanded "0" = .ok "0" := rfl
  obtain ⟨s, hs, hrefused⟩ :=
    database_of_values hfives (by decide +kernel) hfile hlog hfive hlogPath
  obtain ⟨t, ht, hnone⟩ :=
    database_of_values hzeros (by decide +kernel) hfile hzero htitle hzeroPath
  rw [hname] at hrefused hnone
  exact ⟨⟨s, hs, hrefused⟩, t, ht, hnone⟩

end Settings

end RecordLog
