import RecordLog.Proofs.Events.Stream

/-!
# Where events go

A program configures the event stream, emits events and closes the file, in any order.  The
stream is off when it begins.  `Routed` says from the steps taken where an event goes next: the
last configuring decides, if it succeeded, and a file counts only until it is closed.

The stream itself remembers no steps, only a destination and a handle.  `routed_iff` is the
invariant that ties these to the steps, with one lemma for each kind of step.  From it, an event
is one line where it is routed to and nothing else.  So one step adds along every route what is
routed there (`receives_step`), and by induction so do all steps (`receives_run`, `run_routed`).
-/

namespace RecordLog.EventStream

/-! ### Runs -/

/-- A step that a program takes with the stream. -/
inductive Step where
  | configure (setting : Option Text)
  | emit (time : Text) (fields : Members)
  | close

/-- The stream, and all that it writes to: the disk, and the lines on standard output. -/
structure Scene where
  stream : EventStream
  disk : Disk
  printed : List Text

namespace Scene

/-- Before the first step. -/
def initial (disk : Disk) : Scene := ⟨off, disk, []⟩

/-- What configuring the stream would lead to. -/
def configured (s : Scene) (setting : Option Text) : Configured :=
  s.stream.configure s.disk setting

/-- Takes a step. -/
def step (s : Scene) : Step → Scene
  | .configure setting =>
    { s with stream := (s.configured setting).stream, disk := (s.configured setting).disk }
  | .emit time fields =>
    let (printed, disk) := s.stream.emit s.disk time fields
    { s with disk, printed := s.printed ++ printed }
  | .close => { s with stream := s.stream.close }

/-- Takes steps in a row. -/
def run (s : Scene) (steps : List Step) : Scene :=
  steps.foldl step s

/-- The last of several steps is taken from where the others lead. -/
theorem run_concat (s : Scene) (steps : List Step) (final : Step) :
    s.run (steps ++ [final]) = (s.run steps).step final :=
  List.foldl_concat step s final steps

end Scene

/-! ### The last configuring -/

/-- In a row of steps, the last configuring is to `setting`, after the steps `earlier` and before
the steps `since`. -/
structure LastConfigured (steps earlier : List Step) (setting : Option Text)
    (since : List Step) : Prop where
  parts : steps = earlier ++ .configure setting :: since
  last : ∀ other, .configure other ∉ since

namespace LastConfigured

variable {steps earlier since : List Step} {setting : Option Text} {step : Step}

/-- Configuring the stream makes that setting the last one, with nothing since. -/
theorem configure (steps : List Step) (setting : Option Text) :
    LastConfigured (steps ++ [.configure setting]) steps setting [] :=
  ⟨rfl, fun _ => List.not_mem_nil⟩

/-- A step that configures nothing leaves the last setting in place, and comes after it. -/
theorem concat (h : LastConfigured steps earlier setting since)
    (hstep : ∀ other, step ≠ .configure other) :
    LastConfigured (steps ++ [step]) earlier setting (since ++ [step]) where
  parts := by rw [h.parts, List.append_assoc, List.cons_append]
  last := by
    intro other hmem
    rcases List.mem_append.mp hmem with hsince | hnow
    · exact h.last other hsince
    · exact hstep other (List.mem_singleton.mp hnow).symm

/-- The last configuring is either the last step or came before it. -/
theorem of_concat (h : LastConfigured (steps ++ [step]) earlier setting since) :
    (step = .configure setting ∧ steps = earlier ∧ since = []) ∨
      ((∀ other, step ≠ .configure other) ∧
        ∃ before, since = before ++ [step] ∧ LastConfigured steps earlier setting before) := by
  obtain ⟨hparts, hlast⟩ := h
  -- Nothing came since, or the last of what came since is the last step.
  rcases List.eq_nil_or_concat since with hnil | ⟨before, final, hsince⟩
  · rw [hnil] at hparts
    obtain ⟨hsteps, hstep⟩ := List.append_inj' hparts rfl
    exact Or.inl ⟨(List.cons.inj hstep).1, hsteps, hnil⟩
  · rw [List.concat_eq_append] at hsince
    rw [hsince, ← List.cons_append, ← List.append_assoc] at hparts
    obtain ⟨hsteps, hstep⟩ := List.append_inj' hparts rfl
    obtain rfl : step = final := (List.cons.inj hstep).1
    refine Or.inr ⟨?_, before, hsince, hsteps, ?_⟩
    · intro other hconfigure
      refine hlast other ?_
      rw [hsince, ← hconfigure]
      exact List.mem_append_right before List.mem_cons_self
    · intro other hmem
      refine hlast other ?_
      rw [hsince]
      exact List.mem_append_left _ hmem

theorem ne_nil (h : LastConfigured steps earlier setting since) : steps ≠ [] := by
  rw [h.parts]
  exact List.append_ne_nil_of_right_ne_nil earlier (List.cons_ne_nil _ _)

end LastConfigured

/-! ### Routing -/

/-- After steps from the scene `s`, the next event goes along a route. -/
inductive Routed (s : Scene) (steps : List Step) : Route → Prop
  /-- The last configuring succeeded, and was to standard output. -/
  | standardOutput {earlier since : List Step} {setting : Option Text}
      (last : LastConfigured steps earlier setting since)
      (active : ((s.run earlier).configured setting).active =
        .ok (some EventStream.standardOutput)) :
      Routed s steps .standardOutput
  /-- The last configuring succeeded, and was to a file, which is not closed since. -/
  | file {earlier since : List Step} {setting : Option Text} {target : Text} {place : Place}
      (last : LastConfigured steps earlier setting since)
      (active : ((s.run earlier).configured setting).active = .ok (some target))
      (named : target ≠ EventStream.standardOutput)
      (located : (s.run earlier).disk.locateForWriting (Path.ofText target) = .ok place)
      (unclosed : .close ∉ since) :
      Routed s steps (.file place)

variable {s : Scene} {steps : List Step} {route : Route} {disk : Disk}

/-- Before the first step no route is taken. -/
theorem not_routed_nil (s : Scene) (route : Route) : ¬ Routed s [] route := by
  intro h
  cases h with
  | standardOutput last active => exact last.ne_nil rfl
  | file last active named located unclosed => exact last.ne_nil rfl

/-- Right after configuring, the route is that of the stream. -/
theorem routed_configure_iff {setting : Option Text} :
    Routed s (steps ++ [.configure setting]) route ↔
      ((s.run steps).configured setting).stream.route? = some route := by
  have hconfigures : Configures (s.run steps).disk setting ((s.run steps).configured setting) :=
    configures_configure _ _ _
  have hlast := LastConfigured.configure steps setting
  constructor
  · intro h
    cases h with
    | standardOutput last active =>
        obtain ⟨hstep, rfl, -⟩ | ⟨hstep, -⟩ := last.of_concat
        · obtain rfl := Step.configure.inj hstep
          exact hconfigures.route?_eq_standardOutput_iff.mpr active
        · exact absurd rfl (hstep setting)
    | @file earlier since other target place last active named located unclosed =>
        obtain ⟨hstep, rfl, -⟩ | ⟨hstep, -⟩ := last.of_concat
        · obtain rfl := Step.configure.inj hstep
          exact hconfigures.route?_eq_file_iff.mpr ⟨target, active, named, located⟩
        · exact absurd rfl (hstep setting)
  · intro hroute
    cases route with
    | standardOutput =>
        exact .standardOutput hlast (hconfigures.route?_eq_standardOutput_iff.mp hroute)
    | file place =>
        obtain ⟨target, hactive, hnamed, hlocated⟩ := hconfigures.route?_eq_file_iff.mp hroute
        exact .file hlast hactive hnamed hlocated List.not_mem_nil

/-- Events do not change where events go. -/
theorem routed_emit_iff {time : Text} {fields : Members} :
    Routed s (steps ++ [.emit time fields]) route ↔ Routed s steps route := by
  have hemit : ∀ other, Step.emit time fields ≠ .configure other := fun _ => nofun
  constructor
  · intro h
    cases h with
    | standardOutput last active =>
        obtain ⟨hstep, -⟩ | ⟨-, before, -, hbefore⟩ := last.of_concat
        · exact absurd hstep (hemit _)
        · exact .standardOutput hbefore active
    | file last active named located unclosed =>
        obtain ⟨hstep, -⟩ | ⟨-, before, hsince, hbefore⟩ := last.of_concat
        · exact absurd hstep (hemit _)
        · have hopen : Step.close ∉ before := by
            intro hmem
            rw [hsince] at unclosed
            exact unclosed (List.mem_append_left _ hmem)
          exact .file hbefore active named located hopen
  · intro h
    cases h with
    | standardOutput last active => exact .standardOutput (last.concat hemit) active
    | file last active named located unclosed =>
        refine .file (last.concat hemit) active named located ?_
        intro hmem
        rcases List.mem_append.mp hmem with hsince | hnow
        · exact unclosed hsince
        · cases List.mem_singleton.mp hnow

/-- Closing ends the route to a file, and keeps the one to standard output. -/
theorem routed_close_iff :
    Routed s (steps ++ [.close]) route ↔ Routed s steps route ∧ route = .standardOutput := by
  have hclose : ∀ other, Step.close ≠ .configure other := fun _ => nofun
  constructor
  · intro h
    cases h with
    | standardOutput last active =>
        obtain ⟨hstep, -⟩ | ⟨-, before, -, hbefore⟩ := last.of_concat
        · exact absurd hstep (hclose _)
        · exact ⟨.standardOutput hbefore active, rfl⟩
    | file last active named located unclosed =>
        obtain ⟨hstep, -⟩ | ⟨-, before, hsince, -⟩ := last.of_concat
        · exact absurd hstep (hclose _)
        · rw [hsince] at unclosed
          exact absurd (List.mem_append_right before List.mem_cons_self) unclosed
  · intro h
    obtain ⟨hrouted, rfl⟩ := h
    cases hrouted with
    | standardOutput last active => exact .standardOutput (last.concat hclose) active

/-- **The route of the stream is where the steps route events to.**  This is the invariant that
ties the destination and the handle to the steps. -/
theorem routed_iff (disk : Disk) (steps : List Step) (route : Route) :
    Routed (.initial disk) steps route ↔
      ((Scene.initial disk).run steps).stream.route? = some route := by
  -- From the back: both sides say what the last step makes of the route before it.
  induction steps using List.reverseRecOn generalizing route with
  | nil => exact iff_of_false (not_routed_nil _ route) nofun
  | append_singleton steps step ih =>
      rw [Scene.run_concat]
      cases step with
      | configure setting => exact routed_configure_iff
      | emit time fields => exact routed_emit_iff.trans (ih route)
      | close =>
          rw [routed_close_iff, ih route]
          exact route?_close_eq_some_iff.symm

instance (disk : Disk) (steps : List Step) (route : Route) :
    Decidable (Routed (.initial disk) steps route) :=
  decidable_of_iff _ (routed_iff disk steps route).symm

/-- A file that events are routed to stands below the root directory. -/
theorem Routed.place_ne_nil {place : Place} (h : Routed s steps (.file place)) : place ≠ [] := by
  cases h with
  | file last active named located unclosed => exact Disk.ne_nil_of_locateForWriting located

/-! ### What an event writes -/

/-- The scene with one more line where a route leads to. -/
def Scene.withLine (s : Scene) (t : Text) : Route → Scene
  | .standardOutput => { s with printed := s.printed ++ [t] }
  | .file place => { s with disk := appendAt s.disk place t }

/-- An event that is routed somewhere is one more line there. -/
theorem run_emit_of_routed (h : Routed (.initial disk) steps route) (time : Text)
    (fields : Members) :
    (Scene.initial disk).run (steps ++ [.emit time fields]) =
      ((Scene.initial disk).run steps).withLine (line time fields) route := by
  have hroute := (routed_iff disk steps route).mp h
  rw [Scene.run_concat, Scene.step, emit_eq, hroute]
  cases route with
  | standardOutput => rfl
  | file place => exact congrArg (Scene.mk _ _) (List.append_nil _)

/-- An event that is routed nowhere changes nothing. -/
theorem run_emit_of_not_routed (h : ∀ route, ¬ Routed (.initial disk) steps route) (time : Text)
    (fields : Members) :
    (Scene.initial disk).run (steps ++ [.emit time fields]) = (Scene.initial disk).run steps := by
  have hroute : ((Scene.initial disk).run steps).stream.route? = none := by
    refine Option.eq_none_iff_forall_ne_some.mpr ?_
    intro route hsome
    exact h route ((routed_iff disk steps route).mpr hsome)
  rw [Scene.run_concat, Scene.step, emit_eq, hroute]
  exact congrArg (Scene.mk _ _) (List.append_nil _)

/-! ### What a run writes -/

/-- The line that a step after the steps `before` adds along a route, if it adds one. -/
def addedLine (disk : Disk) (route : Route) (before : List Step) : Step → List Text
  | .emit time fields => if Routed (.initial disk) before route then [line time fields] else []
  | .configure _ => []
  | .close => []

/-- The lines that steps after the steps `before` add along a route, in order. -/
def addedLines (disk : Disk) (route : Route) : (before later : List Step) → List Text
  | _, [] => []
  | before, step :: later =>
    addedLine disk route before step ++ addedLines disk route (before ++ [step]) later

/-- The lines of several steps are those of the earlier ones and then that of the last. -/
theorem addedLines_concat (disk : Disk) (route : Route) (before later : List Step) (step : Step) :
    addedLines disk route before (later ++ [step]) =
      addedLines disk route before later ++ addedLine disk route (before ++ later) step := by
  induction later generalizing before with
  | nil =>
      rw [List.append_nil, List.nil_append, addedLines, addedLines, addedLines, List.append_nil,
        List.nil_append]
  | cons first later ih =>
      rw [List.cons_append, addedLines, addedLines, ih, List.append_assoc, List.append_assoc,
        List.singleton_append]

/-- From one scene to another, a route gets these lines, and nothing else. -/
def Scene.Receives (s s' : Scene) (ts : List Text) : Route → Prop
  | .standardOutput => s'.printed = s.printed ++ ts
  | .file place => s'.disk.contentAt place = s.disk.contentAt place ++ ts.flatMap Text.encodeUtf8

theorem Scene.Receives.refl (s : Scene) (route : Route) : s.Receives s [] route := by
  cases route with
  | standardOutput => exact (List.append_nil _).symm
  | file place => exact (List.append_nil _).symm

/-- What is received in two stretches is received in their order. -/
theorem Scene.Receives.trans {s s' s'' : Scene} {ts us : List Text}
    (h : s.Receives s' ts route) (h' : s'.Receives s'' us route) :
    s.Receives s'' (ts ++ us) route := by
  cases route with
  | standardOutput =>
      have hfirst : s'.printed = s.printed ++ ts := h
      have hsecond : s''.printed = s'.printed ++ us := h'
      change s''.printed = s.printed ++ (ts ++ us)
      rw [hsecond, hfirst, List.append_assoc]
  | file place =>
      have hfirst : s'.disk.contentAt place = _ := h
      have hsecond : s''.disk.contentAt place = _ := h'
      change s''.disk.contentAt place = _ ++ (ts ++ us).flatMap Text.encodeUtf8
      rw [hsecond, hfirst, List.flatMap_append, List.append_assoc]

/-- A line is received where its route leads to. -/
theorem Routed.receives_withLine {s' : Scene} (h : Routed s steps route) (t : Text) :
    s'.Receives (s'.withLine t route) [t] route := by
  cases route with
  | standardOutput => rfl
  | file place =>
      change (appendAt s'.disk place t).contentAt place = _
      rw [contentAt_appendAt_self h.place_ne_nil, List.flatMap_singleton]

/-- A line is received nowhere else. -/
theorem Scene.receives_withLine_other {other : Route} (h : other ≠ route) (s : Scene) (t : Text) :
    s.Receives (s.withLine t other) [] route := by
  cases other with
  | standardOutput =>
      cases route with
      | standardOutput => exact absurd rfl h
      | file place => exact Scene.Receives.refl s (.file place)
  | file elsewhere =>
      cases route with
      | standardOutput => exact Scene.Receives.refl s .standardOutput
      | file place =>
          have hne : elsewhere ≠ place := fun hsame => h (congrArg Route.file hsame)
          change (appendAt s.disk elsewhere t).contentAt place = _
          rw [contentAt_appendAt_other hne]
          exact (List.append_nil _).symm

/-- One step: every route receives the line that the step adds along it. -/
theorem receives_step (disk : Disk) (steps : List Step) (step : Step) (route : Route) :
    ((Scene.initial disk).run steps).Receives ((Scene.initial disk).run (steps ++ [step]))
      (addedLine disk route steps step) route := by
  cases step with
  | configure setting =>
      rw [Scene.run_concat, addedLine]
      cases route with
      | standardOutput => exact (List.append_nil _).symm
      | file place =>
          exact (contentAt_configure _ _ setting place).trans (List.append_nil _).symm
  | close =>
      rw [Scene.run_concat, addedLine]
      cases route with
      | standardOutput => exact (List.append_nil _).symm
      | file place => exact (List.append_nil _).symm
  | emit time fields =>
      rw [addedLine]
      -- The event goes along this route, along another one, or nowhere.
      by_cases hhere : Routed (.initial disk) steps route
      · rw [if_pos hhere, run_emit_of_routed hhere]
        exact hhere.receives_withLine _
      · rw [if_neg hhere]
        by_cases helsewhere : ∃ other, Routed (.initial disk) steps other
        · obtain ⟨other, hother⟩ := helsewhere
          have hne : other ≠ route := fun hsame => hhere (hsame ▸ hother)
          rw [run_emit_of_routed hother]
          exact Scene.receives_withLine_other hne _ _
        · rw [run_emit_of_not_routed (not_exists.mp helsewhere)]
          exact Scene.Receives.refl _ route

/-- All steps: every route receives the lines that are routed there, in order. -/
theorem receives_run (disk : Disk) (steps : List Step) (route : Route) :
    (Scene.initial disk).Receives ((Scene.initial disk).run steps)
      (addedLines disk route [] steps) route := by
  induction steps using List.reverseRecOn with
  | nil => exact Scene.Receives.refl _ route
  | append_singleton steps step ih =>
      rw [addedLines_concat, List.nil_append]
      exact ih.trans (receives_step disk steps step route)

/-! ### After a failure -/

/-- While the stream is off, only configuring it again changes anything. -/
theorem Scene.run_of_off (h : s.stream = off) (since : List Step)
    (hsince : ∀ setting, .configure setting ∉ since) : s.run since = s := by
  obtain ⟨stream, disk, printed⟩ := s
  obtain rfl : stream = off := h
  induction since with
  | nil => rfl
  | cons step since ih =>
      have hstep : (Scene.mk off disk printed).step step = ⟨off, disk, printed⟩ := by
        cases step with
        | configure setting => exact absurd List.mem_cons_self (hsince setting)
        | emit time fields => exact congrArg (Scene.mk off disk) (List.append_nil printed)
        | close => rfl
      change ((Scene.mk off disk printed).step step).run since = _
      rw [hstep]
      exact ih fun setting hmem => hsince setting (List.mem_cons_of_mem step hmem)

/-- After a configuring that fails the stream is off, and nothing is written until it is
configured again. -/
theorem Scene.run_of_failed {setting : Option Text} {failure : Failure}
    (h : (s.configured setting).active = .error failure) (since : List Step)
    (hsince : ∀ other, .configure other ∉ since) :
    s.run (.configure setting :: since) = { s with stream := off } := by
  have hstep : s.step (.configure setting) = { s with stream := off } := by
    have hconfigures : Configures s.disk setting (s.configured setting) :=
      configures_configure _ _ _
    rw [Scene.step]
    generalize s.configured setting = configured at hconfigures h ⊢
    cases hconfigures with
    | off named => rfl
    | printing named => cases h
    | filing named file opened => cases h
    | failed named file refused => rfl
  change (s.step (.configure setting)).run since = _
  rw [hstep]
  exact Scene.run_of_off rfl since hsince

/-! ### Main theorem -/

/-- **Nothing is lost, doubled or led astray.**  Take any steps from a stream that is off.

An event after them is one line where it is routed to, and nothing if it is routed nowhere.
Standard output has in the end the lines that were routed there, in order, and every file has
them after its first content.  After a configuring that fails nothing is written until the
stream is configured again.  And a line is one line of JSON: it shows the fields that are not
null, and the time if none of them is in its place. -/
theorem run_routed (disk : Disk) (steps : List Step) :
    let after := (Scene.initial disk).run steps
    (∀ time fields,
      (∀ route, Routed (.initial disk) steps route →
        after.step (.emit time fields) = after.withLine (line time fields) route) ∧
      ((∀ route, ¬ Routed (.initial disk) steps route) →
        after.step (.emit time fields) = after)) ∧
    after.printed = addedLines disk .standardOutput [] steps ∧
    (∀ place, after.disk.contentAt place =
      disk.contentAt place ++
        (addedLines disk (.file place) [] steps).flatMap Text.encodeUtf8) ∧
    (∀ setting failure, (after.configured setting).active = .error failure →
      ∀ since, (∀ other, .configure other ∉ since) →
        after.run (.configure setting :: since) = { after with stream := off }) ∧
    ∀ time (fields : Members), fields.keys.Nodup →
      ∃ (t : Text) (payload : Members), line time fields = t ++ Text.ofString "\n" ∧ ControlFree t ∧
        t = Json.write .compact (.obj payload) ∧ payload.keys.Nodup ∧
        ∀ key, payload.get? key =
          ((fields.get? key).filter fun v => !v.isNull).or
            (if Text.ofString "ts" = key then some (.str time) else none) := by
  intro after
  refine ⟨?_, receives_run disk steps .standardOutput,
    fun place => receives_run disk steps (.file place), ?_, ?_⟩
  · intro time fields
    rw [← Scene.run_concat]
    exact ⟨fun route hroute => run_emit_of_routed hroute time fields,
      fun hnone => run_emit_of_not_routed hnone time fields⟩
  · intro setting failure hfailed since hsince
    exact Scene.run_of_failed hfailed since hsince
  · intro time fields hdistinct
    obtain ⟨t, hline, hfree, hwritten⟩ := line_eq time fields
    exact ⟨t, payload time fields, hline, hfree, hwritten, nodup_keys_payload time fields,
      get?_payload hdistinct time⟩

/-- A file is opened twice and closed, then events are printed, and at last a folder cannot be
opened. -/
theorem run_routed_reopened_file :
    let disk : Disk := ⟨[(["a.log"], .file [0x61]), (["d"], .folder)], []⟩
    let fields (n : Int) : Members := [("n", .int n), ("left", .null)]
    let event (n : Int) : Step := .emit "now" (fields n)
    let steps : List Step :=
      [event 0, .configure (some " a.log"), event 1, .configure (some "a.log"), event 2, .close,
        event 3, .configure (some "stdout"), .close, event 4]
    let after := (Scene.initial disk).run steps
    Routed (.initial disk) steps .standardOutput ∧
      after.step (event 5) = after.withLine (line "now" (fields 5)) .standardOutput ∧
      after.printed = ["\x7b\"ts\":\"now\",\"n\":4\x7d\n"] ∧
      after.disk.contentAt ["a.log"] =
        0x61 :: Text.encodeUtf8 (Text.ofString ("\x7b\"ts\":\"now\",\"n\":1\x7d\n" ++
          "\x7b\"ts\":\"now\",\"n\":2\x7d\n")) ∧
      (∀ route, ¬ Routed (.initial disk) [event 0] route) ∧
      ((Scene.initial disk).run [event 0]).step (event 1) = (Scene.initial disk).run [event 0] ∧
      (after.configured (some "d")).active =
        .error (.storage ⟨.isFolder, Path.ofText "d"⟩) ∧
      after.run [.configure (some "d"), event 6, .close, event 7] =
        { after with stream := off } ∧
      ∃ (t : Text) (payload : Members), line "now" (fields 5) = t ++ Text.ofString "\n" ∧
        ControlFree t ∧ t = Json.write .compact (.obj payload) ∧
        payload.get? "ts" = some (.str (Text.ofString "now")) ∧
        payload.get? "n" = some (.int 5) ∧ payload.get? "left" = none := by
  intro disk fields event steps after
  obtain ⟨hemitted, hprinted, hcontent, hfailed, hlines⟩ := run_routed disk steps
  have hrouted : Routed (.initial disk) steps .standardOutput :=
    (routed_iff disk steps .standardOutput).mpr rfl
  have hunrouted : ∀ route, ¬ Routed (.initial disk) [event 0] route := by
    intro route hroute
    cases (routed_iff disk [event 0] route).mp hroute
  have hrefused : (after.configured (some "d")).active =
      .error (.storage ⟨.isFolder, Path.ofText "d"⟩) := rfl
  have hsince : ∀ other, .configure other ∉ [event 6, .close, event 7] := by
    intro other hmem
    rcases List.mem_cons.mp hmem with h | h
    · cases h
    rcases List.mem_cons.mp h with h | h
    · cases h
    · cases List.mem_singleton.mp h
  have hdistinct : (fields 5).keys.Nodup := by decide
  obtain ⟨t, payload, hline, hfree, hwritten, -, hshown⟩ := hlines "now" (fields 5) hdistinct
  refine ⟨hrouted, ?_, ?_, ?_, hunrouted, ?_, hrefused, ?_, t, payload, hline, hfree, hwritten,
    hshown "ts", hshown "n", hshown "left"⟩
  · exact (hemitted "now" (fields 5)).1 .standardOutput hrouted
  · rw [hprinted]
    decide +kernel
  · rw [hcontent]
    decide +kernel
  · exact ((run_routed disk [event 0]).1 "now" (fields 1)).2 hunrouted
  · exact hfailed (some "d") _ hrefused [event 6, .close, event 7] hsince

end RecordLog.EventStream
