import RecordLog.Proofs.Settings.Defaults
import RecordLog.Settings.View

/-!
# Views and dotted paths

A chain of names reaches what the dotted path of these names reads, as long as sections lead to
it (`follow_eq_read`).  If it reaches a section, there is a view, and an access in the view is
the access to the settings at the longer path: the names of the chain, and then the path in the
view (`readOr_below`, `replaceAt_write`).

`Access.performAllIn_eq` says so of any number of accesses in one view.  The step that carries
its induction is that no access in a view removes the section that the view shows.
-/

namespace RecordLog.Section

variable {s t : Section} {names : List Text} {name : Text}

/-- A name that reaches a setting: it has no dot, is not reserved, and is not the name of an
operation on settings. -/
def NamesSetting (name : Text) : Prop :=
  CodePoint.ofChar '.' ∉ name ∧ isReserved name = false ∧ name ∉ operationNames

instance : DecidablePred NamesSetting := fun name =>
  inferInstanceAs (Decidable (CodePoint.ofChar '.' ∉ name ∧ isReserved name = false ∧
    name ∉ operationNames))

/-- The dotted path of a chain of names. -/
def chainPath (names : List Text) : Text :=
  joined [CodePoint.ofChar '.'] names

/-- A dotted path that goes on where a chain of names ends. -/
def pathBelow (names : List Text) (path : Text) : Text :=
  chainPath names ++ CodePoint.ofChar '.' :: path

/-- The keys of a chain's path are its names. -/
theorem dottedKeys_chainPath (hne : names ≠ []) (hnames : ∀ name ∈ names, NamesSetting name) :
    dottedKeys (chainPath names) = names :=
  splitOn_joined hne fun name hname => (hnames name hname).1

/-- The keys of a path below a chain are the names and then the keys of the path. -/
theorem dottedKeys_pathBelow (hne : names ≠ []) (hnames : ∀ name ∈ names, NamesSetting name)
    (path : Text) : dottedKeys (pathBelow names path) = names ++ dottedKeys path := by
  have hchain : splitOn (CodePoint.ofChar '.') (chainPath names) = names :=
    dottedKeys_chainPath hne hnames
  rw [dottedKeys, pathBelow, splitOn_append_sep, hchain, dottedKeys]

/-! ### What a chain reaches -/

/-- A chain goes on from what its first name reaches. -/
theorem follow_cons (h : NamesSetting name) (s : Section) (names : List Text) :
    follow (.obj s) (name :: names) = follow (Members.getOrNull s name) names := by
  have hoperation : ¬ name.isOneOf operationNames = true := mt Text.isOneOf_iff.mp h.2.2
  rw [follow, if_neg (ne_true_of_eq_false h.2.1), if_neg hoperation]

/-- A chain that leads through sections reaches what is found at its names. -/
theorem follow_eq_find (hnames : ∀ name ∈ names, NamesSetting name)
    (hlead : ∀ p, p <+: names → p ≠ names → s.HasSection p) :
    follow (.obj s) names = .ok (s.find names) := by
  induction names generalizing s with
  | nil => rfl
  | cons name names ih =>
      obtain ⟨hname, hlater⟩ := List.forall_mem_cons.mp hnames
      rw [follow_cons hname]
      by_cases hlast : names = []
      · subst hlast
        rfl
      · have hfirst : s.HasSection [name] :=
          hlead [name] ((List.prefix_cons_inj name).mpr names.nil_prefix)
            fun heq => hlast (List.cons.inj heq).2.symm
        have hkey := get?_of_section hfirst
        rw [Members.getOrNull, hkey, Option.getD_some, find_cons_of_obj hkey]
        refine ih hlater fun p hp hne => ?_
        exact (hasSection_cons_iff hkey).mp (hlead (name :: p)
          ((List.prefix_cons_inj name).mpr hp) fun heq => hne (List.cons.inj heq).2)

/-- A chain that leads through sections reaches what is read at its path. -/
theorem follow_eq_read (hne : names ≠ []) (hnames : ∀ name ∈ names, NamesSetting name)
    (hlead : ∀ p, p <+: names → p ≠ names → s.HasSection p) :
    follow (.obj s) names = .ok (s.read (chainPath names)) := by
  rw [read, dottedKeys_chainPath hne hnames, follow_eq_find hnames hlead]

/-- There is a view just where a section is reached. -/
theorem viewAt_eq_ok_iff {v : Json} (h : follow (.obj s) names = .ok v) :
    s.viewAt names = .ok t ↔ v = .obj t := by
  rw [viewAt, h]
  cases v with
  | obj u => exact ⟨fun heq => congrArg Json.obj (Except.ok.inj heq),
      fun heq => congrArg Except.ok (Json.obj.inj heq)⟩
  | _ => exact iff_of_false nofun nofun

/-- A section is read at the path of a chain exactly if it stands at its names. -/
theorem read_chainPath_eq_obj_iff (hne : names ≠ [])
    (hnames : ∀ name ∈ names, NamesSetting name) :
    s.read (chainPath names) = .obj t ↔ (Json.obj s).at? names = some (.obj t) := by
  rw [read, dottedKeys_chainPath hne hnames]
  exact find_eq_iff_of_ne_null Json.noConfusion

/-! ### Accesses in a view -/

section

variable (hne : names ≠ []) (hnames : ∀ name ∈ names, NamesSetting name)
  (hview : (Json.obj s).at? names = some (.obj t))

include hne in
/-- Replacing what a view shows is putting it at the view's path. -/
theorem replaceAt_eq_put (s t : Section) : replaceAt s names t = s.put names (.obj t) := by
  obtain ⟨name, names, rfl⟩ := List.exists_cons_of_ne_nil hne
  rfl

include hnames hview in
/-- A chain that leads to a section has a view of it. -/
theorem viewAt_eq : s.viewAt names = .ok t := by
  have hfollow := follow_eq_find hnames fun p hp hproper => hasSection_of_at? hview hp hproper
  exact (viewAt_eq_ok_iff hfollow).mpr ((find_eq_iff_of_ne_null Json.noConfusion).mpr hview)

include hne hnames hview

/-- What is read below a chain is read in the section there. -/
theorem read_below (path : Text) : s.read (pathBelow names path) = t.read path := by
  rw [read, dottedKeys_pathBelow hne hnames, find_append_of_section hview, read]

/-- What is written in a view is written to the settings. -/
theorem replaceAt_write (path : Text) (v : Json) :
    replaceAt s names (t.write path v) = s.write (pathBelow names path) v := by
  rw [replaceAt_eq_put hne, write, write, dottedKeys_pathBelow hne hnames,
    put_append_of_section hne (dottedKeys_ne_nil path) hview]

/-- A look-up below a chain is one in the section there, which is put back. -/
theorem readOr_below (path : Text) (usual : Json) :
    s.readOr (pathBelow names path) usual =
      ((t.readOr path usual).1, replaceAt s names (t.readOr path usual).2) := by
  simp only [readOr, read_below hne hnames hview]
  split
  · rw [replaceAt_write hne hnames hview]
  · rw [replaceAt_eq_put hne, put_of_at? hne hview]

/-- A look-up in a view is one at the joined path. -/
theorem readOrIn_eq (path : Text) (usual : Json) :
    s.readOrIn names path usual =
      (.ok (s.readOr (pathBelow names path) usual).1,
        (s.readOr (pathBelow names path) usual).2) := by
  rw [readOrIn, viewAt_eq hnames hview, readOr_below hne hnames hview]

/-- Writing in a view is writing at the joined path. -/
theorem writeIn_eq (path : Text) (v : Json) :
    s.writeIn names path v = (.ok (), s.write (pathBelow names path) v) := by
  rw [writeIn, viewAt_eq hnames hview]
  exact congrArg (Prod.mk _) (replaceAt_write hne hnames hview path v)

end

/-! ### Accesses in a row -/

/-- An access to settings at a dotted path. -/
inductive Access where
  /-- Reads with a default; null is the same as none. -/
  | read (path : Text) (usual : Json)
  /-- Writes a value. -/
  | write (path : Text) (value : Json)

namespace Access

/-- What an access to settings gives, and the settings afterwards. -/
def perform : Access → Section → Outcome Json × Section
  | read path usual, s => (.ok (s.readOr path usual).1, (s.readOr path usual).2)
  | write path value, s => (.ok .null, s.write path value)

/-- What an access in a view gives, and the settings afterwards. -/
def performIn (names : List Text) : Access → Section → Outcome Json × Section
  | read path usual, s => s.readOrIn names path usual
  | write path value, s =>
    ((s.writeIn names path value).1.map fun _ => .null, (s.writeIn names path value).2)

/-- The access to settings that an access in a view is. -/
def below (names : List Text) : Access → Access
  | read path usual => read (pathBelow names path) usual
  | write path value => write (pathBelow names path) value

/-- What accesses in a row give, and the settings after all of them. -/
def performAll (perform : Access → Section → Outcome Json × Section) :
    Section → List Access → List (Outcome Json) × Section
  | s, [] => ([], s)
  | s, a :: later =>
    let after := performAll perform (perform a s).2 later
    ((perform a s).1 :: after.1, after.2)

variable (hne : names ≠ []) (hnames : ∀ name ∈ names, NamesSetting name)

include hne hnames

/-- An access in a view is the access at the joined path. -/
theorem performIn_eq (h : s.HasSection names) (a : Access) :
    a.performIn names s = (a.below names).perform s := by
  obtain ⟨t, hview⟩ := h
  cases a with
  | read path usual => exact readOrIn_eq hne hnames hview path usual
  | write path value => rw [performIn, writeIn_eq hne hnames hview]; rfl

/-- Writing beyond a section leaves a section there. -/
theorem hasSection_write (path : Text) (v : Json) :
    (s.write (pathBelow names path) v).HasSection names := by
  rw [Section.write, dottedKeys_pathBelow hne hnames]
  exact at?_put_append_left s names (dottedKeys_ne_nil path) v

/-- No access in a view removes the section that the view shows. -/
theorem hasSection_perform (h : s.HasSection names) (a : Access) :
    ((a.below names).perform s).2.HasSection names := by
  cases a with
  | write path value => exact hasSection_write hne hnames path value
  | read path usual =>
      rcases readOr_snd_cases s (pathBelow names path) usual with hsame | ⟨_, _, hwritten⟩
      · exact hsame.symm ▸ h
      · exact hwritten.symm ▸ hasSection_write hne hnames path usual

/-- Any number of accesses in a view are accesses to the settings. -/
theorem performAllIn_eq (h : s.HasSection names) (accesses : List Access) :
    performAll (performIn names) s accesses =
      performAll perform s (accesses.map (below names)) := by
  induction accesses generalizing s with
  | nil => rfl
  | cons a later ih =>
      have hafter := hasSection_perform hne hnames h a
      rw [List.map_cons, performAll, performAll, performIn_eq hne hnames h, ih hafter]

end Access

/-- **Views and dotted paths agree.**  Take a chain of names that reach settings, with sections
on the way.  It reaches what the dotted path of the names reads, and there is a view just where
that is a section.  Reading in the view, with a default or without one, and writing in it then
give what they give at the longer dotted path, and leave the settings the same; so do any number
of accesses in the view. -/
theorem view_agrees {s : Section} {names : List Text} (hne : names ≠ [])
    (hnames : ∀ name ∈ names, NamesSetting name)
    (hlead : ∀ p, p <+: names → p ≠ names → s.HasSection p) :
    follow (.obj s) names = .ok (s.read (chainPath names)) ∧
      (∀ t, s.viewAt names = .ok t ↔ s.read (chainPath names) = .obj t) ∧
      ∀ t, s.read (chainPath names) = .obj t →
        (∀ path, s.readOrIn names path .null = (.ok (s.read (pathBelow names path)), s)) ∧
        (∀ path usual, s.readOrIn names path usual =
          (.ok (s.readOr (pathBelow names path) usual).1,
            (s.readOr (pathBelow names path) usual).2)) ∧
        (∀ path v, s.writeIn names path v = (.ok (), s.write (pathBelow names path) v)) ∧
        ∀ accesses, Access.performAll (Access.performIn names) s accesses =
          Access.performAll Access.perform s (accesses.map (Access.below names)) := by
  have hfollow := follow_eq_read hne hnames hlead
  refine ⟨hfollow, fun t => viewAt_eq_ok_iff hfollow, ?_⟩
  intro t hread
  have hview := (read_chainPath_eq_obj_iff hne hnames).mp hread
  refine ⟨?_, readOrIn_eq hne hnames hview, writeIn_eq hne hnames hview,
    Access.performAllIn_eq hne hnames ⟨t, hview⟩⟩
  intro path
  rw [readOrIn_eq hne hnames hview, readOr_null]

/-- A view of a section in a section.  A default is kept below a value, which gives way to a
section. -/
theorem view_agrees_below_value :
    let s : Section := [("databases", .obj [("zoo", .obj [("path", .str "zoo.log")])])]
    let after : Section := [("databases", .obj [("zoo", .obj [("path", .obj [("0", .int 1)])])])]
    let names : List Text := ["databases", "zoo"]
    names ≠ [] ∧ (∀ name ∈ names, NamesSetting name) ∧
      (∀ p, p <+: names → p ≠ names → s.HasSection p) ∧
      s.read "databases.zoo" = .obj [("path", .str "zoo.log")] ∧
      s.viewAt names = .ok [("path", .str "zoo.log")] ∧
      s.readOrIn names "path.0" (.int 1) = (Except.ok (.int 1), after) ∧
      s.writeIn names "strict_ids" (.bool true) =
        (Except.ok (), s.write "databases.zoo.strict_ids" (.bool true)) := by
  intro s after names
  have hne : names ≠ [] := by decide
  have hnames : ∀ name ∈ names, NamesSetting name := by decide
  have hlead : ∀ p, p <+: names → p ≠ names → s.HasSection p := by
    intro p hp hproper
    rcases List.prefix_cons_iff.mp hp with rfl | ⟨q, rfl, hq⟩
    · exact hasSection_nil s
    · rcases List.prefix_cons_iff.mp hq with rfl | ⟨r, rfl, hr⟩
      · exact ⟨_, rfl⟩
      · exact absurd (by rw [List.prefix_nil.mp hr]) hproper
  have hread : s.read "databases.zoo" = .obj [("path", .str "zoo.log")] := rfl
  obtain ⟨_, hview, haccess⟩ := view_agrees hne hnames hlead
  obtain ⟨_, hreading, hwriting, _⟩ := haccess _ hread
  exact ⟨hne, hnames, hlead, hread, (hview _).mpr hread, hreading "path.0" (.int 1),
    hwriting "strict_ids" (.bool true)⟩

end RecordLog.Section
