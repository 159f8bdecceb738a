import Mathlib.Data.List.Pairwise
import RecordLog.Proofs.Json.RoundTrip
import RecordLog.Proofs.Settings.Expansion
import RecordLog.Proofs.Settings.Merging
import RecordLog.Proofs.Settings.Planting
import RecordLog.Proofs.Text.Utf8
import RecordLog.Settings.Layers

/-!
# Precedence of layers

The environment lies over the file, and the file over the built-in settings.  For variables
whose paths are apart:

* every variable is read at its path, whatever the layers below hold (`layered_find`);
* at a path apart from all of them the environment shows nothing (`Holds.find_of_apart`), so
  the file is read there if it has a plain value, and the built-in settings if it has null or
  nothing (`load_precedence`).
-/

namespace RecordLog

/-! ### Expanded documents -/

namespace Json

mutual

/-- Replacing references leaves the keys alone. -/
theorem WellFormed.expanded (env : Environment) : ∀ {v : Json}, WellFormed v →
    WellFormed (v.expanded env)
  | null, _ => trivial
  | bool _, _ => trivial
  | int _, _ => trivial
  | float _, _ => trivial
  | str _, _ => trivial
  | arr _, h => WellFormedItems.expanded env h
  | obj members, h =>
      ⟨(keys_expandedMembers env members).symm ▸ h.1, WellFormedMembers.expanded env h.2⟩

theorem WellFormedItems.expanded (env : Environment) : ∀ {items : List Json},
    WellFormedItems items → WellFormedItems (expandedItems env items)
  | [], _ => trivial
  | _ :: _, h => ⟨h.1.expanded env, WellFormedItems.expanded env h.2⟩

theorem WellFormedMembers.expanded (env : Environment) : ∀ {members : Members},
    WellFormedMembers members → WellFormedMembers (expandedMembers env members)
  | [], _ => trivial
  | _ :: _, h => ⟨h.1.expanded env, WellFormedMembers.expanded env h.2⟩

end

end Json

/-! ### What the environment shows -/

/-- Of settings whose paths are apart, none covers another one. -/
theorem not_covers_of_apart {as : List Setting} {a b : Setting}
    (h : as.Pairwise fun a b => Apart a.path b.path) (ha : a ∈ as) (hb : b ∈ as) :
    ¬ a.Covers b := by
  rintro ⟨hbegins, hpaths⟩
  have hsymm : Std.Symm fun a b : Setting => Apart a.path b.path := ⟨fun _ _ h => h.symm⟩
  have hne : a ≠ b := fun heq => hpaths (congrArg Setting.path heq)
  exact (h.forall ha hb hne).1 hbegins

namespace Section

variable {s : Section} {as : List Setting} {path : List Text}

/-- A plain value that is found was planted by some setting. -/
theorem Holds.exists_setting (h : Holds s as) (hplain : (s.find path).isPlain = true) :
    ∃ a ∈ as, a.path = path := by
  have hat := (find_eq_iff hplain).mp rfl
  obtain ⟨a, ha, hpath, _⟩ := h.planted hat (Json.ne_obj_of_isPlain hplain)
  exact ⟨a, ha, hpath⟩

/-- At a path apart from all settings there is nothing, and nothing plain on the way. -/
theorem Holds.find_of_apart (h : Holds s as) (hpath : path ≠ [])
    (hapart : ∀ a ∈ as, Apart a.path path) :
    s.find path = .null ∧ ∀ p, p <+: path → (s.find p).isPlain = false := by
  constructor
  · cases hat : (Json.obj s).at? path with
    | none => rw [find_eq, hat, Option.getD_none]
    | some v =>
        obtain ⟨rest, w, hrest, hw⟩ := h.filled hpath hat
        obtain ⟨a, ha, heq⟩ := h.exists_setting ((find_eq_iff hw).mpr hrest ▸ hw)
        exact absurd (heq ▸ List.prefix_append path rest) (hapart a ha).2
  · intro p hp
    by_contra hplain
    obtain ⟨a, ha, rfl⟩ := h.exists_setting (eq_true_of_ne_false hplain)
    exact (hapart a ha).1 hp

end Section

/-! ### All layers -/

namespace Settings

variable {env : Environment} {platform : Platform} {disk : Disk} {file : Section}

/-- The layers are the built-in settings, then the file, then the environment. -/
theorem layered_obj (env : Environment) (file : Section) :
    layered env (.obj file) =
      (Section.ofEnvironment env).map (Section.builtIn.merge file).merge := by
  cases file <;> rfl

/-- Variables whose paths are apart are read over the other layers, which are read everywhere
else.  There are no settings only if the text of a variable stands for nothing. -/
theorem layered_find (hapart : env.settings.Pairwise fun a b => Apart a.path b.path)
    (file : Section) :
    (∃ a ∈ env.settings, ∃ e, scalarValue a.raw = .error e ∧
      layered env (.obj file) = .error e) ∨
    ∃ s, layered env (.obj file) = .ok s ∧
      (∀ a ∈ env.settings, scalarValue a.raw = .ok (s.find a.path)) ∧
      ∀ path, path ≠ [] → (∀ a ∈ env.settings, Apart a.path path) →
        s.find path = (Section.builtIn.merge file).find path := by
  have hpaths : ∀ a ∈ env.settings, a.path ≠ [] := fun _ => Environment.path_ne_nil
  have hdistinct : (env.settings.map Setting.path).Nodup := by
    refine List.pairwise_map.mpr (hapart.imp ?_)
    intro a b h heq
    exact h.1 (heq ▸ List.prefix_rfl)
  have horder : env.settings.Pairwise fun a b => ¬ a.Covers b :=
    hapart.imp fun h hcovers => h.1 hcovers.1
  rw [layered_obj, Section.ofEnvironment, Section.plantAll_eq]
  rcases Section.plantEach_cases hpaths horder with ⟨t, ht⟩ | ⟨a, ha, e, hvalue, he⟩
  · right
    have hholds := Section.holds_of_plantEach hpaths ht
    obtain ⟨hvalues, _⟩ := (Section.exists_plantEach_iff hpaths).mp ⟨t, ht⟩
    refine ⟨(Section.builtIn.merge file).merge t, by rw [ht]; rfl, ?_, ?_⟩
    · intro a ha
      obtain ⟨v, hv⟩ := hvalues a ha
      have hplain := isPlain_of_scalarValue hv
      have hat : (Json.obj t).at? a.path = some v :=
        (hholds.at?_eq_some_iff hdistinct hplain).mpr
          ⟨a, ha, rfl, hv, fun b hb => not_covers_of_apart hapart hb ha⟩
      have hmerged := Section.at?_merge_of_isPlain hholds.wellFormed
        (Section.builtIn.merge file) hplain hat
      rw [hv, (Section.find_eq_iff hplain).mpr hmerged]
    · intro path hpath hfar
      obtain ⟨hnull, hclear⟩ := hholds.find_of_apart hpath hfar
      exact Section.find_merge_of_null hholds.wellFormed _ hnull hclear
  · exact Or.inl ⟨a, ha, e, hvalue, by rw [he]; rfl⟩

/-- The layer of a file that holds an object. -/
theorem fileLayer_of_read {path : Path} {content : Octets} {document : Members}
    (hcontent : disk.read path = .ok content)
    (hdocument : platform.readDocument content = .ok (.obj document)) :
    fileLayer platform disk path =
      .ok (.obj (Json.expandedMembers platform.environment document)) := by
  rw [fileLayer, Disk.isFile_of_read hcontent, hcontent]
  dsimp only
  rw [hdocument]
  cases document <;> rfl

/-- A file that is UTF-8 and YAML holds the document of its text. -/
theorem readDocument_of_readYaml {content : Octets} {t : Text} {document : Json}
    (ht : Text.decodeUtf8 content = .ok t)
    (hyaml : platform.readYaml (Platform.withLineFeeds t) = some document) :
    platform.readDocument content = .ok document := by
  simp only [Platform.readDocument, ht, hyaml]

/-- **The environment lies over the file, and the file over the built-in settings.**  Take a
file that holds an object, whose keys are distinct at every level, and variables whose paths are
apart and have no dots.  If the text of each variable stands for a value, there are settings.
Each variable is then read at its path.  At every other path that is apart from all of theirs,
a plain value of the file is read; and where the file has null or nothing, and nothing plain on
the way, the built-in value is. -/
theorem load_precedence {given : Option Text} {content : Octets} {document : Members}
    (hcontent : disk.read (filePath platform.environment given) = .ok content)
    (hdocument : platform.readDocument content = .ok (.obj document))
    (hkeys : Json.WellFormed (.obj document))
    (hapart : platform.environment.settings.Pairwise fun a b => Apart a.path b.path)
    (hdots : ∀ a ∈ platform.environment.settings, ∀ key ∈ a.path, CodePoint.ofChar '.' ∉ key) :
    (∃ a ∈ platform.environment.settings, ∃ e, scalarValue a.raw = .error e ∧
      load platform disk given = .error e) ∨
    ∃ s, load platform disk given = .ok s ∧
      (∀ a ∈ platform.environment.settings,
        scalarValue a.raw = .ok (s.read (joined [CodePoint.ofChar '.'] a.path))) ∧
      ∀ path, (∀ a ∈ platform.environment.settings, Apart a.path (dottedKeys path)) →
        let file : Section := Json.expandedMembers platform.environment document
        ((file.read path).isPlain = true → s.read path = file.read path) ∧
        (file.read path = .null →
          (∀ keys, keys <+: dottedKeys path → (file.find keys).isPlain = false) →
          s.read path = Section.builtIn.read path) := by
  have hload : load platform disk given = layered platform.environment
      (.obj (Json.expandedMembers platform.environment document)) := by
    rw [load, fileLayer_of_read hcontent hdocument]
  have hfile : Json.WellFormed (.obj (Json.expandedMembers platform.environment document)) :=
    hkeys.expanded platform.environment
  rw [hload]
  rcases layered_find hapart (Json.expandedMembers platform.environment document) with
    hfails | ⟨s, hs, hvalues, hbelow⟩
  · exact Or.inl hfails
  · refine Or.inr ⟨s, hs, ?_, ?_⟩
    · intro a ha
      have hkeys : dottedKeys (joined [CodePoint.ofChar '.'] a.path) = a.path :=
        splitOn_joined (Environment.path_ne_nil ha) (hdots a ha)
      rw [Section.read, hkeys]
      exact hvalues a ha
    · intro path hfar
      have hread : s.read path = (Section.builtIn.merge
          (Json.expandedMembers platform.environment document)).find (dottedKeys path) :=
        hbelow _ (Section.dottedKeys_ne_nil path) hfar
      constructor
      · intro hplain
        exact hread.trans (Section.find_merge_of_isPlain hfile _ hplain)
      · intro hnull hclear
        exact hread.trans (Section.find_merge_of_null hfile _ hnull hclear)

/-- A variable over a file, and the file over the built-in settings.  The platform reads the
file, whose lines end in two characters, as the block mapping that it is. -/
theorem load_precedence_three_layers :
    let text : Text :=
      "query:\n  strict_ids: true\nserver:\n  port: 9000\n  host: ~\n"
    let document : Members := [("query", .obj [("strict_ids", .bool true)]),
      ("server", .obj [("port", .int 9000), ("host", .null)])]
    let platform : Platform :=
      { Platform.ofEnvironment [("LOGQUERY_SERVER__PORT", "9001")] with
        readYaml := fun t => if t = text then some (.obj document) else none }
    let written : Text :=
      "query:\r\n  strict_ids: true\r\nserver:\r\n  port: 9000\r\n  host: ~\r\n"
    let content := Text.encodeUtf8 written
    let disk : Disk := ⟨[([Text.ofString "c"], .file content)], []⟩
    ∃ s, load platform disk (some "c") = .ok s ∧ s.read "server.port" = .int 9001 ∧
      s.read "query.strict_ids" = .bool true ∧ s.read "server.host" = .str "127.0.0.1" := by
  intro text document platform written content disk
  have hkeys : Json.WellFormed (.obj document) :=
    ⟨by decide, ⟨by decide, trivial, trivial⟩, ⟨by decide, trivial, trivial, trivial⟩, trivial⟩
  have hdecoded : Text.decodeUtf8 content = .ok written :=
    Text.decodeUtf8_eq_ok_iff.mpr ⟨rfl, by decide +kernel⟩
  have hlines : Platform.withLineFeeds written = text := by decide +kernel
  have hyaml : platform.readYaml (Platform.withLineFeeds written) = some (.obj document) := by
    rw [hlines]
    show (if text = text then some (Json.obj document) else none) = some (.obj document)
    exact if_pos rfl
  have hdocument : platform.readDocument content = .ok (.obj document) :=
    readDocument_of_readYaml hdecoded hyaml
  have hcontent : disk.read (filePath platform.environment (some "c")) = .ok content := rfl
  have hsettings : platform.environment.settings = [⟨["server", "port"], "9001"⟩] := by decide
  have hvalue : scalarValue "9001" = .ok (.int 9001) := rfl
  have hpath : joined [CodePoint.ofChar '.'] ["server", "port"] = Text.ofString "server.port" := by
    decide
  rcases load_precedence hcontent hdocument hkeys (by decide) (by decide) with
    ⟨a, ha, e, he, _⟩ | ⟨s, hs, hvariables, hbelow⟩
  · rw [hsettings] at ha
    obtain rfl := List.mem_singleton.mp ha
    cases hvalue.symm.trans he
  · have hport := hvariables _ (hsettings ▸ List.mem_singleton_self _)
    rw [hvalue, hpath] at hport
    refine ⟨s, hs, (Except.ok.inj hport).symm, ?_, ?_⟩
    · exact (hbelow "query.strict_ids" (by decide)).1 rfl
    · have hclear : ∀ keys ∈ List.inits (dottedKeys "server.host"),
          (Section.find (Json.expandedMembers platform.environment document) keys).isPlain =
            false := by decide
      exact (hbelow "server.host" (by decide)).2 rfl fun keys hkeys =>
        hclear keys ((List.mem_inits keys _).mpr hkeys)

end Settings

end RecordLog
