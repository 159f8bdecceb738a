import RecordLog.Events.Stream
import RecordLog.Proofs.Json.Lines
import RecordLog.Proofs.Json.Members

/-!
# Steps of the event stream

What one step with the event stream does.  `get?_payload` and `line_eq` describe the line of an
event.  `configured_configure` lists what configuring can lead to.  Where an event goes is the
`route?` of the stream, and `emit_eq` writes it there.

No step changes the content of a file in another way than by adding a line to it
(`contentAt_configure`, `contentAt_appendAt`).
-/

namespace RecordLog

namespace Disk

variable {d : Disk} {place other : Place}

/-- Removing the nodes at one place does not change what is looked up at another. -/
theorem lookup_filter_of_ne {nodes : List (Place × Node)} (h : place ≠ other) :
    (nodes.filter (·.1 != place)).lookup other = nodes.lookup other := by
  induction nodes with
  | nil => rfl
  | cons entry nodes ih =>
      obtain ⟨here, node⟩ := entry
      by_cases hhere : here = place
      · have hother : (other == here) = false := by
          rw [hhere]
          exact beq_false_of_ne (Ne.symm h)
        rw [List.filter_cons_of_neg (by simp [hhere]), ih, List.lookup_cons, hother]
      · rw [List.filter_cons_of_pos (by simp [hhere]), List.lookup_cons, List.lookup_cons, ih]

/-- A node just put at a place is found there. -/
theorem node?_put_self (d : Disk) (h : place ≠ []) (node : Node) :
    (d.put place node).node? place = some node := by
  rw [node?, if_neg h, put, List.lookup_cons_self]

/-- Putting a node at one place leaves every other place as it was. -/
theorem node?_put_other (d : Disk) (h : place ≠ other) (node : Node) :
    (d.put place node).node? other = d.node? other := by
  have hother : (other == place) = false := beq_false_of_ne (Ne.symm h)
  rw [node?, node?, put, List.lookup_cons, hother, lookup_filter_of_ne h]

/-- A file just put at a place has the content put there. -/
theorem contentAt_put_self (d : Disk) (h : place ≠ []) (content : Octets) :
    (d.put place (.file content)).contentAt place = content := by
  rw [contentAt, node?_put_self d h]

theorem contentAt_put_other (d : Disk) (h : place ≠ other) (node : Node) :
    (d.put place node).contentAt other = d.contentAt other := by
  rw [contentAt, contentAt, node?_put_other d h]

/-- Files can be written at places below the root directory only. -/
theorem ne_nil_of_locateForWriting {p : Path} (h : d.locateForWriting p = .ok place) :
    place ≠ [] := by
  intro hroot
  subst hroot
  unfold locateForWriting at h
  split at h
  · cases h
  · next found hfound =>
      split at h
      · cases h
      · cases h
      · next hnode _ =>
          split at h
          · cases h
          · obtain rfl := Except.ok.inj h
            exact hnode rfl

end Disk

namespace EventStream

variable {stream : EventStream} {disk disk' : Disk} {setting : Option Text} {place : Place}

/-! ### Lines -/

/-- A payload has the fields that are not null, and the time if none of them is in its place. -/
theorem get?_payload {fields : Members} (h : fields.keys.Nodup) (time key : Text) :
    (payload time fields).get? key =
      ((fields.get? key).filter fun v => !v.isNull).or
        (if Text.ofString "ts" = key then some (.str time) else none) := by
  have hdistinct : ∀ p, (Members.keys (fields.filter p)).Nodup := by
    intro p
    exact h.sublist (List.filter_sublist.map _)
  rw [payload, Members.get?_setAll _ (hdistinct _), Members.get?_filter_isNull h]
  rfl

/-- An emitted line names no field twice, the caller's own `ts` included. -/
theorem nodup_keys_payload (time : Text) (fields : Members) :
    (payload time fields).keys.Nodup := by
  have hfirst : (Members.keys [(Text.ofString "ts", Json.str time)]).Nodup :=
    List.nodup_singleton _
  exact Members.nodup_keys_setAll hfirst _

/-- A line is one line. -/
theorem line_eq (time : Text) (fields : Members) :
    ∃ t, line time fields = t ++ Text.ofString "\n" ∧ ControlFree t ∧
      t = Json.write .compact (.obj (payload time fields)) :=
  ⟨_, rfl, Json.controlFree_write Json.Style.printable_compact _, rfl⟩

/-! ### Opening and configuring -/

/-- A file that opens is created empty or keeps its content, and nothing else on the disk
changes. -/
theorem openFile_eq_ok {target : Text} (h : openFile disk target = .ok (place, disk')) :
    disk.locateForWriting (Path.ofText target) = .ok place ∧
      disk' = disk.put place (.file (disk.contentAt place)) := by
  unfold openFile at h
  dsimp only at h
  split at h
  · cases h
  · split at h
    · cases h
    · next found hfound =>
        split at h
        · cases h
        · obtain ⟨rfl, rfl⟩ := Prod.mk.inj (Except.ok.inj h)
          exact ⟨hfound, rfl⟩

/-- What configuring can lead to on a disk. -/
inductive Configures (disk : Disk) (setting : Option Text) : Configured → Prop
  | off (named : destination? setting = none) : Configures disk setting ⟨.ok none, off, disk⟩
  | printing (named : destination? setting = some standardOutput) :
      Configures disk setting ⟨.ok (some standardOutput), printing, disk⟩
  | filing {target : Text} {place : Place} {disk' : Disk}
      (named : destination? setting = some target) (file : target ≠ standardOutput)
      (opened : openFile disk target = .ok (place, disk')) :
      Configures disk setting ⟨.ok (some target), ⟨some target, some place⟩, disk'⟩
  | failed {target : Text} {failure : Failure} (named : destination? setting = some target)
      (file : target ≠ standardOutput) (refused : openFile disk target = .error failure) :
      Configures disk setting ⟨.error failure, .off, disk⟩

/-- What configuring leads to does not depend on the stream as it was. -/
theorem configures_configure (stream : EventStream) (disk : Disk) (setting : Option Text) :
    Configures disk setting (stream.configure disk setting) := by
  unfold configure
  dsimp only
  cases hnamed : destination? setting with
  | none => exact .off hnamed
  | some target =>
      by_cases hfile : target = standardOutput
      · subst hfile
        exact .printing hnamed
      · cases hopened : openFile disk target with
        | error e =>
            simp only [if_neg hfile, hopened]
            exact .failed hnamed hfile hopened
        | ok opened =>
            obtain ⟨place, disk'⟩ := opened
            simp only [if_neg hfile, hopened]
            exact .filing hnamed hfile hopened

/-- Configuring keeps the content of every file. -/
theorem contentAt_configure (stream : EventStream) (disk : Disk) (setting : Option Text)
    (place : Place) :
    (stream.configure disk setting).disk.contentAt place = disk.contentAt place := by
  have hconfigures := configures_configure stream disk setting
  generalize stream.configure disk setting = configured at hconfigures ⊢
  cases hconfigures with
  | off named => rfl
  | printing named => rfl
  | failed named file refused => rfl
  | @filing target opened disk' named file hopened =>
      obtain ⟨hplace, rfl⟩ := openFile_eq_ok hopened
      by_cases hsame : opened = place
      · subst hsame
        exact Disk.contentAt_put_self disk (Disk.ne_nil_of_locateForWriting hplace) _
      · exact Disk.contentAt_put_other disk hsame _

/-! ### Routes -/

/-- Where a line can go. -/
inductive Route where
  | standardOutput
  | file (place : Place)
deriving DecidableEq

/-- Where an event goes, if anywhere. -/
def route? (stream : EventStream) : Option Route :=
  stream.destination.bind fun target =>
    if target = standardOutput then some .standardOutput else stream.handle.map .file

/-- An event is one line where the route leads to, and nothing else. -/
theorem emit_eq (stream : EventStream) (disk : Disk) (time : Text) (fields : Members) :
    stream.emit disk time fields =
      match stream.route? with
      | none => ([], disk)
      | some .standardOutput => ([line time fields], disk)
      | some (.file place) => ([], appendAt disk place (line time fields)) := by
  obtain ⟨destination, handle⟩ := stream
  cases destination with
  | none => rfl
  | some target =>
      by_cases hprinted : target = standardOutput
      · simp only [emit, route?, Option.bind_some, if_pos hprinted]
      · simp only [emit, route?, Option.bind_some, if_neg hprinted]
        cases handle <;> rfl

/-- Events are printed exactly if standard output is the active destination. -/
theorem Configures.route?_eq_standardOutput_iff {configured : Configured}
    (h : Configures disk setting configured) :
    configured.stream.route? = some .standardOutput ↔
      configured.active = .ok (some standardOutput) := by
  cases h with
  | off named => exact iff_of_false nofun nofun
  | printing named => exact iff_of_true rfl rfl
  | failed named file refused => exact iff_of_false nofun nofun
  | filing named file opened =>
      refine iff_of_false ?_ fun hactive => file (Option.some.inj (Except.ok.inj hactive))
      simp [route?, if_neg file]

/-- Events go to a file exactly if the active destination is another one that leads there. -/
theorem Configures.route?_eq_file_iff {configured : Configured}
    (h : Configures disk setting configured) :
    configured.stream.route? = some (.file place) ↔
      ∃ target, configured.active = .ok (some target) ∧ target ≠ standardOutput ∧
        disk.locateForWriting (Path.ofText target) = .ok place := by
  cases h with
  | off named => exact iff_of_false nofun nofun
  | printing named =>
      refine iff_of_false nofun ?_
      intro hfile
      obtain ⟨target, hactive, hne, -⟩ := hfile
      exact hne (Option.some.inj (Except.ok.inj hactive)).symm
  | failed named file refused => exact iff_of_false nofun nofun
  | @filing target opened disk' named file hopened =>
      obtain ⟨hplace, -⟩ := openFile_eq_ok hopened
      have hroute : route? ⟨some target, some opened⟩ = some (.file opened) := if_neg file
      rw [hroute]
      constructor
      · intro hsame
        obtain rfl := Route.file.inj (Option.some.inj hsame)
        exact ⟨target, rfl, file, hplace⟩
      · intro hfile
        obtain ⟨other, hactive, -, hother⟩ := hfile
        obtain rfl := Option.some.inj (Except.ok.inj hactive)
        obtain rfl := Except.ok.inj (hplace.symm.trans hother)
        rfl

/-- Closing keeps the route to standard output only. -/
theorem route?_close_eq_some_iff {route : Route} :
    stream.close.route? = some route ↔ stream.route? = some route ∧ route = .standardOutput := by
  obtain ⟨destination, handle⟩ := stream
  cases destination with
  | none => exact iff_of_false nofun (fun h => nomatch h.1)
  | some target =>
      by_cases hprinted : target = standardOutput
      · simp only [close, route?, Option.bind_some, if_pos hprinted]
        constructor
        · intro hroute
          exact ⟨hroute, (Option.some.inj hroute).symm⟩
        · intro hroute
          exact hroute.1
      · simp only [close, route?, Option.bind_some, if_neg hprinted]
        refine iff_of_false nofun ?_
        intro hroute
        rw [hroute.2] at hroute
        cases handle with
        | none => cases hroute.1
        | some place => cases hroute.1

/-- A line is appended to what its file held. -/
theorem contentAt_appendAt_self (h : place ≠ []) (t : Text) :
    (appendAt disk place t).contentAt place = disk.contentAt place ++ t.encodeUtf8 :=
  Disk.contentAt_put_self disk h _

/-- A line appended to one file leaves every other as it was. -/
theorem contentAt_appendAt_other {other : Place} (h : place ≠ other) (t : Text) :
    (appendAt disk place t).contentAt other = disk.contentAt other :=
  Disk.contentAt_put_other disk h _

end EventStream

end RecordLog
