import RecordLog.Proofs.Interleaving

/-!
# Isolation of finds

Loads and finds on one handle run side by side.  All of them assign the records
that they load to the handle, so these change while other calls wait.  No answer
comes from there:

* `Handle.run_eq` says that a call that is not interrupted is the plain `load` or
  `find` of a handle;
* `Call.outcome` is what a call answers for a reading, without any handle, and
  `finds_isolated` shows that every call in every history has that outcome for
  its own reading;
* `lastLoaded` follows a history through the loads that succeeded, and
  `finds_isolated` shows that the handle holds just these records.
-/

namespace RecordLog

/-- What callers ask of a handle. -/
inductive Call where
  | load
  | find (document options : Json)
  /-- A find whose options were read before. -/
  | findWith (document : Json) (options : QueryOptions)

/-- What is left of a call once the log has been read. -/
inductive Pending where
  | load
  | answer (document : Json) (options : QueryOptions)

namespace Call

/-- A call up to the reading of the log.  Options that cannot be read end it. -/
def start : Call → Pending ⊕ Outcome (List Record)
  | .load => .inl .load
  | .find document options =>
    match QueryOptions.ofJson options with
    | .error e => .inr (.error (.query e))
    | .ok options => .inl (.answer document options)
  | .findWith document options => .inl (.answer document options)

/-- What a call answers for a reading of the log. -/
def outcome (db : Database) : Call → LogReading → Outcome (List Record)
  | .load, reading => db.load reading
  | .find document options, reading => db.find document options reading
  | .findWith document options, reading => db.findWith document options reading

end Call

/-- The rest of a call: the log is loaded into the handle, and a find is answered
from what was loaded. -/
def Pending.resume (h : Handle) (pending : Pending) (reading : LogReading) :
    Handle × Outcome (List Record) :=
  match h.load reading with
  | (.error failure, h) => (h, .error failure)
  | (.ok records, h) =>
    match pending with
    | .load => (h, .ok records)
    | .answer document options => (h, h.database.answer document options records)

/-- The calls on handles of a database. -/
def Database.calls (db : Database) : Coroutine Handle Call Pending (Outcome (List Record)) where
  path _ := db.path
  start h call := (h, call.start)
  resume := Pending.resume

/-! ### Single calls -/

/-- A call on a handle that is not interrupted. -/
def Handle.run (h : Handle) : Call → LogReading → Outcome (List Record) × Handle
  | .load, reading => h.load reading
  | .find document options, reading => h.find document options reading
  | .findWith document options, reading => h.findWith document options reading

/-- A find in one go is a pending answer that resumes at once. -/
theorem Handle.findWith_eq_resume (h : Handle) (document : Json) (options : QueryOptions)
    (reading : LogReading) :
    h.findWith document options reading =
      ((Pending.answer document options).resume h reading).swap := by
  unfold Pending.resume Handle.findWith Handle.load Handle.afterReading Database.findWith
  cases h.database.load reading <;> rfl

/-- The two steps of a call make the whole call. -/
theorem Handle.run_eq (h : Handle) (call : Call) (reading : LogReading) :
    h.run call reading =
      match call.start with
      | .inr outcome => (outcome, h)
      | .inl pending => (pending.resume h reading).swap := by
  cases call with
  | load =>
      simp only [run, Call.start, Pending.resume, Handle.load, Handle.afterReading]
      cases h.database.load reading <;> rfl
  | find document options =>
      simp only [run, Call.start, Handle.find]
      cases QueryOptions.ofJson options with
      | error e => rfl
      | ok options => exact h.findWith_eq_resume document options reading
  | findWith document options => exact h.findWith_eq_resume document options reading

/-- The outcome of a call depends on the handle's database and on what the call read, not on the
handle's counters. -/
theorem Handle.run_outcome (h : Handle) (call : Call) (reading : LogReading) :
    (h.run call reading).1 = call.outcome h.database reading := by
  cases call with
  | load => rfl
  | find document options =>
      simp only [run, Handle.find, Call.outcome, Database.find]
      cases QueryOptions.ofJson options <;> rfl
  | findWith document options => rfl

/-- A call that ends before the log is read has the same outcome for all
readings. -/
theorem Call.outcome_of_start_inr {call : Call} {result : Outcome (List Record)}
    (h : call.start = .inr result) (db : Database) (reading : LogReading) :
    result = call.outcome db reading := by
  have hrun := (Handle.new db).run_eq call reading
  have houtcome := (Handle.new db).run_outcome call reading
  rw [h] at hrun
  rw [hrun] at houtcome
  exact houtcome

/-- The rest of a call has the outcome of the call, whatever records the handle
holds. -/
theorem Call.outcome_of_start_inl {call : Call} {pending : Pending}
    (h : call.start = .inl pending) (handle : Handle) (reading : LogReading) :
    (pending.resume handle reading).2 = call.outcome handle.database reading := by
  have hrun := handle.run_eq call reading
  have houtcome := handle.run_outcome call reading
  rw [h] at hrun
  rw [hrun] at houtcome
  exact houtcome

/-- Resuming a call keeps the database, and assigns the records if they could be
loaded. -/
theorem Pending.resume_handle (h : Handle) (pending : Pending) (reading : LogReading) :
    (pending.resume h reading).1 = h.afterReading reading := by
  unfold Pending.resume Handle.load
  cases h.database.load reading with
  | error failure => rfl
  | ok records => cases pending <;> rfl

/-- A handle stays on its database. -/
theorem Pending.resume_database {db : Database} (h : Handle) (pending : Pending)
    (reading : LogReading) (hdb : h.database = db) :
    (pending.resume h reading).1.database = db := by
  rw [resume_handle, Handle.afterReading, ← hdb]
  cases h.database.load reading <;> rfl

/-! ### Histories -/

/-- The records that an event loads: those of the reading of the call that is
resumed, if they could be loaded. -/
def loadedBy? (db : Database) (d₀ : Disk) (past : List (Event Call)) :
    Event Call → Option (List Record)
  | .resume i => (readingOf? db.calls d₀ i past).bind fun reading => (db.load reading).toOption
  | _ => none

/-- The records of the last load in a history that succeeded; none if none did. -/
def lastLoaded (db : Database) (d₀ : Disk) : List (Event Call) → List Record
  | [] => []
  | e :: past => (loadedBy? db d₀ past e).getD (lastLoaded db d₀ past)

section

variable {db : Database} {d₀ : Disk} {past : List (Event Call)}
  {w w' : World Handle Pending (Outcome (List Record))}

/-- No step changes which database the handle belongs to. -/
theorem Reached.database_eq (h : Reached db.calls (Handle.new db) d₀ past w) :
    w.state.database = db :=
  h.invariant (I := fun s => s.database = db) rfl (fun _ _ hdb => hdb) Pending.resume_database

/-- Every phase is explained by the call and its reading, on handles of the same
database. -/
theorem Reached.phase_explained (h : Reached db.calls (Handle.new db) d₀ past w) (i : Nat) :
    (w.phase i).Explained db.calls (fun s => s.database = db) (callOf? i past)
      (readingOf? db.calls d₀ i past) :=
  h.explained (I := fun s => s.database = db) rfl (fun _ _ hdb => hdb) Pending.resume_database i

/-- One event assigns the records that it loads, and nothing else. -/
theorem Step.records_eq (h : Reached db.calls (Handle.new db) d₀ past w) {e : Event Call}
    (now : Step db.calls w e w') :
    w'.state.records = (loadedBy? db d₀ past e).getD w.state.records := by
  cases now with
  | start call hi => rfl
  | read hi => rfl
  | change disk => rfl
  | @resume i pending reading hi =>
      have hexplained := h.phase_explained i
      rw [hi] at hexplained
      obtain ⟨_, _, _, hreading, _⟩ := hexplained
      change (pending.resume w.state reading).1.records = _
      rw [Pending.resume_handle]
      simp only [loadedBy?, hreading, Option.bind_some, Handle.afterReading, h.database_eq]
      cases db.load reading <;> rfl

/-- The handle holds the records of the last load that completed. -/
theorem Reached.records_eq (h : Reached db.calls (Handle.new db) d₀ past w) :
    w.state.records = lastLoaded db d₀ past := by
  induction h with
  | begin => rfl
  | step before now ih => rw [now.records_eq before, ih, lastLoaded]

/-- A finished call has the outcome that its own reading gives, whatever ran in between. -/
theorem Reached.outcome_eq (h : Reached db.calls (Handle.new db) d₀ past w) {i : Nat}
    {outcome : Outcome (List Record)} (hi : w.phase i = .finished outcome) :
    ∃ call, callOf? i past = some call ∧
      ∀ other, outcome = call.outcome db ((readingOf? db.calls d₀ i past).getD other) := by
  have hexplained := h.phase_explained i
  rw [hi] at hexplained
  obtain ⟨call, _, hcall, _, hearly | hlate⟩ := hexplained
  · exact ⟨call, hcall, fun other => Call.outcome_of_start_inr hearly.1 db _⟩
  · obtain ⟨pending, reading, t, hstart, hreading, ht, rfl⟩ := hlate
    refine ⟨call, hcall, fun other => ?_⟩
    rw [hreading, Option.getD_some, ← ht]
    exact Call.outcome_of_start_inl hstart t reading

end

/-- **Isolation.**  In every history of loads and finds on one handle, however
their steps and changes of the disk are interleaved:

* every call that has ended has the outcome that the database gives its question
  for what its own reading gave; a call that ended without a reading has that
  outcome for any reading;
* the handle holds the records of the last load that succeeded, or none;
* the next event leaves them as they are unless it resumes a call whose own reading
  can be loaded, so that refused options, a missing file, an undecodable entry and
  a repeated identity change nothing. -/
theorem finds_isolated (db : Database) (d₀ : Disk) {past : List (Event Call)}
    {w : World Handle Pending (Outcome (List Record))}
    (h : Reached db.calls (Handle.new db) d₀ past w) :
    (∀ i outcome, w.phase i = .finished outcome →
      ∃ call, callOf? i past = some call ∧
        ∀ other, outcome = call.outcome db ((readingOf? db.calls d₀ i past).getD other)) ∧
    w.state.database = db ∧
    w.state.records = lastLoaded db d₀ past ∧
    ∀ e w', Step db.calls w e w' →
      (∀ i reading records, e = .resume i → readingOf? db.calls d₀ i past = some reading →
        db.load reading ≠ .ok records) →
      w'.state.records = w.state.records := by
  refine ⟨fun i outcome hi => h.outcome_eq hi, h.database_eq, h.records_eq, ?_⟩
  intro e w' now hfails
  rw [now.records_eq h]
  have hnone : loadedBy? db d₀ past e = none := by
    cases e with
    | resume i =>
        cases hreading : readingOf? db.calls d₀ i past with
        | none => simp only [loadedBy?, hreading, Option.bind_none]
        | some reading =>
            cases hload : db.load reading with
            | error failure =>
                simp only [loadedBy?, hreading, Option.bind_some, hload, Except.toOption]
            | ok records => exact absurd hload (hfails i reading records rfl hreading)
    | start i call => rfl
    | read i => rfl
    | change disk => rfl
  rw [hnone, Option.getD_none]

/-- A load reads the log, then the log is removed, and a find that was started
before reads after that.  The find fails, and the load, which is resumed last,
still gives what it read. -/
theorem finds_isolated_removed_log :
    let db : Database := ⟨⟨.slash, ["db.log"]⟩, [], true⟩
    let log : Octets :=
      [0x45, 0x7B, 0x22, 0x5F, 0x69, 0x64, 0x22, 0x3A, 0x22, 0x78, 0x22, 0x7D]
    let d₀ : Disk := ⟨[(["db.log"], .file log)], []⟩
    let past : List (Event Call) :=
      [.resume 0, .resume 1, .read 1, .change ⟨[], []⟩, .read 0,
        .start 1 (.find (.obj []) .null), .start 0 .load]
    let record : Record := [("_id", .str "x")]
    ∃ w, Reached db.calls (Handle.new db) d₀ past w ∧
      w.phase 1 = .finished (.error (.storage ⟨.missing, db.path⟩)) ∧
      w.state.records = [record] := by
  intro db log d₀ past record
  have begun : Reached db.calls (Handle.new db) d₀ [] _ := .begin
  have started := (begun.step (.start (i := 0) Call.load rfl)).step
    (.start (i := 1) (Call.find (.obj []) .null) rfl)
  have waited := ((started.step (.read (i := 0) rfl)).step (.change ⟨[], []⟩)).step
    (.read (i := 1) rfl)
  have resumed := (waited.step (.resume (i := 1) rfl)).step (.resume (i := 0) rfl)
  exact ⟨_, resumed, rfl, (finds_isolated db d₀ resumed).2.2.1⟩

end RecordLog
