import RecordLog.Proofs.Settings.Defaults
import RecordLog.Service

/-!
# Looking databases up

A look-up of databases reads two settings with defaults, the data directory and whether
identities are strict, and may so add the defaults to the settings.  Afterwards the settings
are `Settled` from what they were: with the defaults they say the same about these two, and
everything else reads as before.

Whatever is `Steady` cannot tell settings from those that they are settled to, and leaves them
settled.  Reading the two settings is steady, steps in a row are steady if each of them is
(`Steady.followed`), and every look-up is made of such steps, also one that fails on the way.
So every look-up in a row of look-ups gives what it would have given as the first one
(`answers_eq_map`).  Going through all databases one by one is such a row, too: it asks for the
names, and then for one database after the other.
-/

namespace RecordLog

namespace Section

/-! ### Settled settings -/

/-- The settings `t` are what look-ups can make of the settings `s`. -/
structure Settled (s t : Section) : Prop where
  dataDir : (t.readOr "data_dir" usualDataDir).1 = (s.readOr "data_dir" usualDataDir).1
  strictness : t.usualStrictness.1 = s.usualStrictness.1
  elsewhere : ∀ path : Text, Apart (dottedKeys "data_dir") (dottedKeys path) →
    Apart (dottedKeys "query.strict_ids") (dottedKeys path) → t.read path = s.read path

namespace Settled

variable {s t u : Section}

theorem refl (s : Section) : Settled s s :=
  ⟨rfl, rfl, fun _ _ _ => rfl⟩

theorem symm (h : Settled s t) : Settled t s :=
  ⟨h.dataDir.symm, h.strictness.symm, fun path hdir hstrict =>
    (h.elsewhere path hdir hstrict).symm⟩

theorem trans (h : Settled s t) (h' : Settled t u) : Settled s u :=
  ⟨h'.dataDir.trans h.dataDir, h'.strictness.trans h.strictness, fun path hdir hstrict =>
    (h'.elsewhere path hdir hstrict).trans (h.elsewhere path hdir hstrict)⟩

/-- Look-ups leave the databases as they are. -/
theorem databasesValue (h : Settled s t) : t.databasesValue = s.databasesValue := by
  have hread : t.read "databases" = s.read "databases" :=
    h.elsewhere "databases" (by decide) (by decide)
  rw [Section.databasesValue, Section.databasesValue, hread]

/-- Look-ups leave the entry of a database as it is. -/
theorem entry? (h : Settled s t) (name : Text) : t.entry? name = s.entry? name := by
  rw [Section.entry?, Section.entry?, h.databasesValue]

/-- Look-ups leave the names of the databases as they are. -/
theorem databaseNames (h : Settled s t) : t.databaseNames = s.databaseNames := by
  rw [Section.databaseNames, Section.databaseNames, h.databasesValue]

end Settled

/-- Adding the default for the data directory settles. -/
theorem settled_readOr_dataDir (s : Section) :
    Settled s (s.readOr "data_dir" usualDataDir).2 where
  dataDir := by rw [readOr_again]
  strictness := readOr_fst_congr (read_readOr_of_apart s usualDataDir (by decide)) _
  elsewhere := fun _ hdir _ => read_readOr_of_apart s usualDataDir hdir

/-- Adding the default for strictness settles. -/
theorem settled_usualStrictness (s : Section) : Settled s s.usualStrictness.2 where
  dataDir := readOr_fst_congr (read_readOr_of_apart s (.bool false) (by decide)) _
  strictness := congrArg Prod.fst (readOr_again s "query.strict_ids" (.bool false))
  elsewhere := fun _ _ hstrict => read_readOr_of_apart s (.bool false) hstrict

/-! ### Steady steps -/

/-- A step that gives the same for settings and for what they are settled to, and leaves
settings settled. -/
structure Steady {α : Type} (f : Section → α × Section) : Prop where
  same : ∀ {s t : Section}, Settled s t → (f t).1 = (f s).1
  settled : ∀ s : Section, Settled s (f s).2

variable {α β : Type}

/-- A step that changes nothing. -/
theorem steady_of_same {f : Section → α} (h : ∀ {s t : Section}, Settled s t → f t = f s) :
    Steady fun s => (f s, s) :=
  ⟨h, Settled.refl⟩

theorem steady_const (a : α) : Steady fun s => (a, s) :=
  steady_of_same fun _ => rfl

/-- What a steady step gives may be put in another form. -/
theorem Steady.map {f : Section → α × Section} (hf : Steady f) (k : α → β) :
    Steady fun s => (k (f s).1, (f s).2) :=
  ⟨fun h => congrArg k (hf.same h), hf.settled⟩

/-- A step that begins with a steady one is steady if, whatever that gives, it goes on with a
steady one. -/
theorem Steady.followed {f : Section → α × Section} {g : Section → β × Section}
    (hf : Steady f)
    (hg : ∀ a, ∃ rest, Steady rest ∧ ∀ s s', f s = (a, s') → g s = rest s') : Steady g where
  same := by
    intro s t h
    obtain ⟨rest, hrest, hgoes⟩ := hg (f s).1
    -- Both go on with the same rest, which cannot tell the settings in between apart.
    have hafter : Settled (f s).2 (f t).2 :=
      (hf.settled s).symm.trans (h.trans (hf.settled t))
    have ht : g t = rest (f t).2 := by
      refine hgoes t (f t).2 ?_
      rw [← hf.same h]
    rw [ht, hgoes s (f s).2 rfl, hrest.same hafter]
  settled := by
    intro s
    obtain ⟨rest, hrest, hgoes⟩ := hg (f s).1
    rw [hgoes s (f s).2 rfl]
    exact (hf.settled s).trans (hrest.settled (f s).2)

/-! ### Look-ups are steady -/

theorem steady_readOr_dataDir : Steady fun s => s.readOr "data_dir" usualDataDir :=
  ⟨Settled.dataDir, settled_readOr_dataDir⟩

theorem steady_usualStrictness : Steady usualStrictness :=
  ⟨Settled.strictness, settled_usualStrictness⟩

theorem steady_resolvePath (platform : Platform) (entry : Section) :
    Steady fun s => s.resolvePath platform entry := by
  unfold resolvePath
  generalize platform.homeExpanded (Members.getOrNull entry "path").plain = expanded
  cases expanded with
  | error e => exact steady_const (Except.error e)
  | ok expanded =>
      dsimp only
      generalize Path.ofText expanded = path
      by_cases habsolute : path.isAbsolute = true
      · simp only [if_pos habsolute]
        exact steady_const (Except.ok path)
      · simp only [if_neg habsolute]
        refine steady_readOr_dataDir.followed fun v => ?_
        cases v with
        | str dir =>
            refine ⟨_, steady_const (Except.ok ((Path.ofText dir).append path)), fun s s' h => ?_⟩
            rw [h]
        | _ =>
            refine ⟨_, steady_const (Except.error Failure.unsuitable), fun s s' h => ?_⟩
            rw [h]

theorem steady_resolveStrictness (entry : Section) :
    Steady fun s => s.resolveStrictness entry := by
  unfold resolveStrictness
  cases Members.getOrNull entry "strict_ids" with
  | null => exact steady_usualStrictness.map Json.truthy
  | _ => exact steady_const _

theorem steady_resolve (platform : Platform) (name : Text) (entry : Section) :
    Steady fun s => s.resolve platform name entry := by
  refine (steady_resolvePath platform entry).followed fun path => ?_
  cases path with
  | error e =>
      refine ⟨_, steady_const (Except.error e), fun s s' h => ?_⟩
      rw [resolve, h]
  | ok path =>
      refine ⟨_, (steady_resolveStrictness entry).map fun strictIds =>
        (textFieldsOf name (Members.getOrNull entry "text_fields")).map fun textFields =>
          (⟨name, ⟨path, textFields, strictIds⟩⟩ : CatalogEntry), fun s s' h => ?_⟩
      rw [resolve, h]
      dsimp only
      cases textFieldsOf name (Members.getOrNull entry "text_fields") <;> rfl

theorem steady_database (platform : Platform) (name : Text) :
    Steady fun s => s.database platform name := by
  have hentry : Steady fun s => (s.entry? name, s) := steady_of_same fun h => h.entry? name
  refine hentry.followed fun entry => ?_
  match entry with
  | .error e =>
      refine ⟨_, steady_const (Except.error e), fun s s' h => ?_⟩
      obtain ⟨hs, rfl⟩ := Prod.mk.inj h
      rw [database, hs]
  | .ok none =>
      refine ⟨_, steady_const (Except.ok none), fun s s' h => ?_⟩
      obtain ⟨hs, rfl⟩ := Prod.mk.inj h
      rw [database, hs]
  | .ok (some entry) =>
      refine ⟨_, (steady_resolve platform name entry).map fun result => result.map some,
        fun s s' h => ?_⟩
      obtain ⟨hs, rfl⟩ := Prod.mk.inj h
      rw [database, hs]

theorem steady_databasesNamed (platform : Platform) (names : List Json) :
    Steady fun s => s.databasesNamed platform names := by
  induction names with
  | nil => exact steady_const (Except.ok [])
  | cons v names ih =>
      cases v with
      | str name =>
          refine (steady_database platform name).followed fun entry => ?_
          cases entry with
          | error e =>
              refine ⟨_, steady_const (Except.error e), fun s s' h => ?_⟩
              rw [databasesNamed, h]
          | ok entry =>
              refine ⟨_, ih.map fun entries => entries.map (entry.toList ++ ·), fun s s' h => ?_⟩
              rw [databasesNamed, h]
      | _ => exact steady_const (Except.error Failure.memberless)

theorem steady_allDatabases (platform : Platform) : Steady fun s => s.allDatabases platform := by
  have hnames : Steady fun s => (s.databaseNames, s) := steady_of_same Settled.databaseNames
  refine hnames.followed fun names => ?_
  cases names with
  | error e =>
      refine ⟨_, steady_const (Except.error e), fun s s' h => ?_⟩
      obtain ⟨hs, rfl⟩ := Prod.mk.inj h
      rw [allDatabases, hs]
  | ok names =>
      refine ⟨_, steady_databasesNamed platform names, fun s s' h => ?_⟩
      obtain ⟨hs, rfl⟩ := Prod.mk.inj h
      rw [allDatabases, hs]

end Section

/-- Opening a database is steady, by its name or by its path. -/
theorem Service.steady_openDatabase (platform : Platform) (disk : Disk) (name : Text)
    (allowPaths : Bool) :
    Section.Steady fun s => openDatabase s platform disk name allowPaths := by
  refine (Section.steady_database platform name).followed fun entry => ?_
  match entry with
  | .error e =>
      refine ⟨_, Section.steady_const (Except.error e), fun s s' h => ?_⟩
      rw [openDatabase, h]
  | .ok (some entry) =>
      refine ⟨_, Section.steady_const (Except.ok entry.database), fun s s' h => ?_⟩
      rw [openDatabase, h]
  | .ok none =>
      -- What the disk says about the name is the same for all settings.
      cases hfile : (if allowPaths then disk.isFile (Path.ofText name) else .ok false) with
      | error e =>
          refine ⟨_, Section.steady_const (Except.error e), fun s s' h => ?_⟩
          simp only [openDatabase, h, hfile]
      | ok found =>
          cases found with
          | true =>
              refine ⟨_, Section.steady_usualStrictness.map fun strict =>
                Except.ok (⟨Path.ofText name, [], strict.truthy⟩ : Database), fun s s' h => ?_⟩
              simp only [openDatabase, h, hfile]
          | false =>
              refine ⟨_, Section.steady_const (Except.error (Failure.query (unknownDatabase name))),
                fun s s' h => ?_⟩
              simp only [openDatabase, h, hfile]

/-! ### Look-ups in a row -/

/-- A look-up of databases. -/
inductive Lookup where
  /-- Asks for the names of all entries. -/
  | names
  /-- Asks for the database with a name. -/
  | database (name : Text)
  /-- Asks for all databases. -/
  | all
  /-- Opens a database by its name, or by a path if that is allowed. -/
  | opening (name : Text) (allowPaths : Bool)

/-- What a look-up gives. -/
inductive Lookup.Answer where
  | names (result : Outcome (List Json))
  | database (result : Outcome (Option CatalogEntry))
  | all (result : Outcome (List CatalogEntry))
  | opening (result : Outcome Database)

/-- A look-up with the surroundings that it is made in. -/
structure Inquiry where
  lookup : Lookup
  platform : Platform
  disk : Disk

/-- The answer to an inquiry, and the settings afterwards. -/
def Inquiry.answer (i : Inquiry) (s : Section) : Lookup.Answer × Section :=
  match i.lookup with
  | .names => (.names s.databaseNames, s)
  | .database name =>
    let (result, s) := s.database i.platform name
    (.database result, s)
  | .all =>
    let (result, s) := s.allDatabases i.platform
    (.all result, s)
  | .opening name allowPaths =>
    let (result, s) := Service.openDatabase s i.platform i.disk name allowPaths
    (.opening result, s)

/-- The answers to inquiries in a row, and the settings after all of them. -/
def answers : Section → List Inquiry → List Lookup.Answer × Section
  | s, [] => ([], s)
  | s, i :: later =>
    let (answer, s) := i.answer s
    let (rest, s) := answers s later
    (answer :: rest, s)

/-- Every kind of look-up is steady. -/
theorem Inquiry.steady_answer (i : Inquiry) : Section.Steady i.answer := by
  obtain ⟨lookup, platform, disk⟩ := i
  cases lookup with
  | names => exact Section.steady_of_same fun h => congrArg Lookup.Answer.names h.databaseNames
  | database name => exact (Section.steady_database platform name).map Lookup.Answer.database
  | all => exact (Section.steady_allDatabases platform).map Lookup.Answer.all
  | opening name allowPaths =>
      exact (Service.steady_openDatabase platform disk name allowPaths).map
        Lookup.Answer.opening

/-- Inquiries in a row leave the settings settled, and after settling all get the answers that
they get from the settings as they were. -/
theorem answers_of_settled {s t : Section} (h : Section.Settled s t) (inquiries : List Inquiry) :
    (answers t inquiries).1 = inquiries.map (fun i => (i.answer s).1) ∧
      Section.Settled s (answers t inquiries).2 := by
  induction inquiries generalizing t with
  | nil => exact ⟨rfl, h⟩
  | cons i later ih =>
      have hafter : Section.Settled s (i.answer t).2 := h.trans (i.steady_answer.settled t)
      obtain ⟨hanswers, hsettled⟩ := ih hafter
      refine ⟨?_, hsettled⟩
      rw [List.map_cons, ← hanswers, ← i.steady_answer.same h]
      rfl

/-- **Look-ups do not influence each other.**  Each one in a row of look-ups gives what it
would have given as the first one, be it a result or a failure.  Afterwards all settings read
as before, apart from the two that look-ups read with defaults. -/
theorem answers_eq_map (s : Section) (inquiries : List Inquiry) :
    (answers s inquiries).1 = inquiries.map (fun i => (i.answer s).1) ∧
      ∀ path : Text, Apart (dottedKeys "data_dir") (dottedKeys path) →
        Apart (dottedKeys "query.strict_ids") (dottedKeys path) →
          (answers s inquiries).2.read path = s.read path := by
  obtain ⟨hanswers, hsettled⟩ := answers_of_settled (Section.Settled.refl s) inquiries
  exact ⟨hanswers, hsettled.elsewhere⟩

/-- An entry without suitable text fields fails and adds the defaults all the same, one of them
in the place of a text.  The look-ups after it give what they give without it, and the names of
the databases read as before. -/
theorem answers_after_failure :
    let bad : Section := [("path", .str "b.log"), ("text_fields", .int 3)]
    let good : Section := [("path", .str "a.log")]
    let databases : Section := [("bad", .obj bad), ("good", .obj good)]
    let s : Section := [("query", .str "x"), ("databases", .obj databases)]
    let ask (lookup : Lookup) : Inquiry := ⟨lookup, .ofEnvironment [], ⟨[], []⟩⟩
    let inquiries := [ask (.database "bad"), ask .names, ask (.opening "good" true), ask .all]
    let failure := Failure.textFields "bad" (.int 3)
    (answers s inquiries).1 =
        [.database (.error failure), .names (.ok [.str "bad", .str "good"]),
          .opening (.ok ⟨Path.ofText "./data/a.log", [], false⟩), .all (.error failure)] ∧
      (answers s inquiries).2.read "query" = .obj [("strict_ids", .bool false)] ∧
      Apart (dottedKeys "data_dir") (dottedKeys "databases") ∧
      Apart (dottedKeys "query.strict_ids") (dottedKeys "databases") ∧
      (answers s inquiries).2.read "databases" = s.read "databases" := by
  intro bad good databases s ask inquiries failure
  obtain ⟨hanswers, helsewhere⟩ := answers_eq_map s inquiries
  have hdir : Apart (dottedKeys "data_dir") (dottedKeys "databases") := by decide
  have hstrict : Apart (dottedKeys "query.strict_ids") (dottedKeys "databases") := by decide
  refine ⟨?_, rfl, hdir, hstrict, helsewhere "databases" hdir hstrict⟩
  rw [hanswers]
  rfl

end RecordLog
