import Mathlib.Algebra.Group.Pi.Basic
import Mathlib.Algebra.GroupWithZero.Nat
import RecordLog.Proofs.Interleaving
import RecordLog.Proofs.Number.Rounding
import RecordLog.Service

/-!
# What finds post

A find counts into the metrics of the service when it begins and when it ends.  What it
adds is an `Account`: a whole number for each counter.  `Metrics.Shows` says that the
counters are given totals, as far as doubles can count; `Metrics.Shows.addNat` is the one
place where sums of doubles are met.

`Service.finds` are finds as calls that wait for the reading of a log, which may run side
by side; `ServiceState.find_eq` says that their two steps make a whole find.  For either
step, the lemmas on it say what it posts (`shows_start`, `shows_resume`), which error is
remembered after it (`lastError_start`, `lastError_resume`), and which counters it leaves
as they are (`counter_start`, `counter_resume`).
-/

namespace RecordLog

/-! ### Posting -/

/-- Whole numbers by the name of a counter. -/
abbrev Account := Text → Nat

/-- A number for one counter. -/
def Account.entry (name : Text) (n : Nat) : Account :=
  fun other => if other = name then n else 0

/-- Posting zero posts nothing. -/
theorem Account.entry_zero (name : Text) : entry name 0 = 0 := by
  funext other
  rw [entry, ite_self, Pi.zero_apply]

namespace Metrics

/-- Setting a counter sets this one, and leaves the others. -/
theorem lookup_setCounter (name other : Text) (value : Double) (counters : List (Text × Double)) :
    (setCounter name value counters).lookup other =
      if other = name then some value else counters.lookup other := by
  induction counters with
  | nil =>
      rw [setCounter, List.lookup_cons, List.lookup_nil]
      by_cases hother : other = name
      · simp only [hother, beq_self_eq_true, if_true]
      · simp only [beq_eq_false_iff_ne.mpr hother, hother, if_false]
  | cons entry later ih =>
      obtain ⟨n, v⟩ := entry
      by_cases hn : n = name
      · rw [setCounter, if_pos hn, List.lookup_cons, List.lookup_cons, hn]
        by_cases hother : other = name
        · simp only [hother, beq_self_eq_true, if_true]
        · simp only [beq_eq_false_iff_ne.mpr hother, hother, if_false]
      · rw [setCounter, if_neg hn, List.lookup_cons, List.lookup_cons, ih]
        by_cases hother : other = n
        · simp only [hother, hn, beq_self_eq_true, if_false]
        · simp only [beq_eq_false_iff_ne.mpr hother]

/-- Adding to a counter changes no other one. -/
theorem counter_addNat (m : Metrics) (name other : Text) (n : Nat) :
    (m.addNat name n).counter other =
      if other = name then (m.counter name).add (.ofIntRounded n) else m.counter other := by
  rw [counter, addNat, add, lookup_setCounter]
  split
  · rfl
  · rfl

/-- The counters show totals, as long as these can be counted in doubles. -/
def Shows (m : Metrics) (t : Account) : Prop :=
  ∀ name, t name < twoTo 53 → m.counter name = .ofIntRounded (t name)

/-- Counters that all start at one value show this value, and so do missing ones. -/
theorem lookup_map_getD (name : Text) (x : Double) (names : List Text) :
    ((names.map (·, x)).lookup name).getD x = x := by
  induction names with
  | nil => rfl
  | cons first later ih =>
      rw [List.map_cons, List.lookup_cons]
      split
      · rfl
      · exact ih

/-- Every counter starts at zero. -/
theorem counter_zero (name : Text) : zero.counter name = Double.zero :=
  lookup_map_getD name Double.zero firstNames

variable {m : Metrics} {t : Account}

/-- Counters at zero show that nothing was posted. -/
theorem shows_zero (hzero : ∀ name, m.counter name = .zero) : m.Shows 0 := by
  intro name _
  rw [hzero, Pi.zero_apply, Int.natCast_zero, Double.ofIntRounded_zero]

/-- Adding a number to a counter posts it. -/
theorem Shows.addNat (h : m.Shows t) (name : Text) (n : Nat) :
    (m.addNat name n).Shows (t + .entry name n) := by
  intro other hsmall
  rw [counter_addNat]
  by_cases hother : other = name
  · subst hother
    simp only [Pi.add_apply, Account.entry, if_true] at hsmall ⊢
    rw [h other (by omega), Double.ofIntRounded_add hsmall]
  · simp only [Pi.add_apply, Account.entry, hother, if_false, Nat.add_zero] at hsmall ⊢
    exact h other hsmall

end Metrics

namespace Service

/-- Whether a query counts as a search for words. -/
def countsAsWords (document : Json) : Bool :=
  match asksForWords document with
  | .ok asks => asks
  | .error _ => false

/-- What a find posts when it begins. -/
def beginning (document : Json) : Account :=
  .entry "queries_total" 1 + .entry "text_queries_total" (countsAsWords document).toNat

/-- The text by which a failure is remembered. -/
def remembered? : Outcome (List Record) → Option Text
  | .ok _ => none
  | .error failure => failure.remembered?

/-- What a find posts when it ends, given how many records were loaded. -/
def ending (loaded : Nat) : Outcome (List Record) → Account
  | .ok found => .entry "records_loaded_total" loaded + .entry "matches_total" found.length
  | .error failure => .entry "errors_total" failure.remembered?.isSome.toNat

variable {m : Metrics} {t : Account}

/-- Beginning a find posts the query, and a search for words. -/
theorem shows_beginFind (h : m.Shows t) (document : Json) :
    (beginFind m document).2.Shows (t + beginning document) := by
  have hcounted : (m.count "queries_total").Shows (t + .entry "queries_total" 1) := h.addNat _ 1
  rw [beginFind, beginning, countsAsWords, ← add_assoc]
  cases asksForWords document with
  | error failure => rwa [Bool.toNat_false, Account.entry_zero, add_zero]
  | ok asks =>
      cases asks with
      | true => exact hcounted.addNat "text_queries_total" 1
      | false => rwa [Bool.toNat_false, Account.entry_zero, add_zero]

/-- Ending a find posts what was loaded and found, or the error. -/
theorem shows_endFind (h : m.Shows t) (loaded : Nat) (result : Outcome (List Record)) :
    (endFind m loaded result).Shows (t + ending loaded result) := by
  cases result with
  | ok found =>
      rw [ending, ← add_assoc]
      exact (h.addNat _ loaded).addNat _ found.length
  | error failure =>
      rw [endFind, ending]
      cases failure.remembered? with
      | none => rwa [Option.isSome_none, Bool.toNat_false, Account.entry_zero, add_zero]
      | some message => exact Metrics.Shows.addNat h "errors_total" 1

/-- A query that cannot be looked at is not remembered as a failure. -/
theorem remembered?_of_beginFind (m : Metrics) (document : Json) (failure : Failure)
    (h : (beginFind m document).1 = .error failure) : failure.remembered? = none := by
  have hasks : asksForWords document = .error failure := by
    rw [beginFind] at h
    cases hasks : asksForWords document with
    | error other =>
        rw [hasks] at h
        exact congrArg Except.error (Except.error.inj h)
    | ok asks =>
        rw [hasks] at h
        cases asks <;> cases h
  unfold asksForWords at hasks
  split at hasks
  · cases hasks
  · cases hasks
  · cases hasks
  · split at hasks
    · cases hasks
      rfl
    · cases hasks

/-- A find that begins adds only to the counters of queries. -/
theorem counter_beginFind (m : Metrics) (document : Json) {name : Text}
    (hqueries : name ≠ "queries_total") (htext : name ≠ "text_queries_total") :
    (beginFind m document).2.counter name = m.counter name := by
  have hcounted : (m.count "queries_total").counter name = m.counter name := by
    rw [Metrics.count, Metrics.counter_addNat, if_neg hqueries]
  simp only [beginFind]
  split
  · exact hcounted
  · rw [Metrics.count, Metrics.counter_addNat, if_neg htext, hcounted]
  · exact hcounted

/-- A find that fails adds only to the counter of errors. -/
theorem counter_endFind_error (m : Metrics) (loaded : Nat) (failure : Failure) {name : Text}
    (herrors : name ≠ "errors_total") :
    (endFind m loaded (.error failure)).counter name = m.counter name := by
  simp only [endFind]
  cases failure.remembered? with
  | none => rfl
  | some message =>
      exact (Metrics.counter_addNat _ _ name 1).trans (if_neg herrors)

theorem lastError_beginFind (m : Metrics) (document : Json) :
    (beginFind m document).2.lastError = m.lastError := by
  simp only [beginFind]
  split
  · rfl
  · rfl
  · rfl

/-- Ending a find remembers the error it ends with. -/
theorem lastError_endFind (m : Metrics) (loaded : Nat) (result : Outcome (List Record)) :
    (endFind m loaded result).lastError = (remembered? result).or m.lastError := by
  cases result with
  | ok found => rfl
  | error failure =>
      simp only [endFind, remembered?]
      cases failure.remembered? with
      | none => rfl
      | some message => rfl

end Service

/-! ### Finds in two steps -/

/-- What is asked of a handle, which is one of many. -/
structure FindCall where
  handle : Nat
  document : Json
  options : Json

/-- What is left of a find once the log has been read. -/
structure FindPending where
  handle : Nat
  document : Json
  options : QueryOptions

/-- What the finds of a service share. -/
structure ServiceState where
  metrics : Metrics
  handles : Nat → Handle

namespace ServiceState

/-- A find up to the reading of the log.  Options that cannot be read end it. -/
def start (s : ServiceState) (call : FindCall) :
    ServiceState × (FindPending ⊕ Outcome (List Record)) :=
  match Service.beginFind s.metrics call.document with
  | (.error failure, m) => ({ s with metrics := m }, .inr (.error failure))
  | (.ok (), m) =>
    match QueryOptions.ofJson call.options with
    | .error e =>
      let loaded := (s.handles call.handle).records.length
      ({ s with metrics := Service.endFind m loaded (.error (.query e)) }, .inr (.error (.query e)))
    | .ok options => ({ s with metrics := m }, .inl ⟨call.handle, call.document, options⟩)

/-- The rest of a find. -/
def resume (s : ServiceState) (pending : FindPending) (reading : LogReading) :
    ServiceState × Outcome (List Record) :=
  let (result, h) :=
    (s.handles pending.handle).findWith pending.document pending.options reading
  (⟨Service.endFind s.metrics h.records.length result,
    Function.update s.handles pending.handle h⟩, result)

/-- The two steps of a find make the whole find. -/
theorem find_eq (s : ServiceState) (call : FindCall) (reading : LogReading) :
    Service.find s.metrics (s.handles call.handle) call.document call.options reading =
      match s.start call with
      | (t, .inr result) => (result, t.metrics)
      | (t, .inl pending) =>
        ((t.resume pending reading).2, (t.resume pending reading).1.metrics) := by
  rw [Service.find, start]
  rcases Service.beginFind s.metrics call.document with ⟨failure | _, m⟩
  · rfl
  · simp only [Handle.find]
    cases QueryOptions.ofJson call.options with
    | error e => rfl
    | ok options => rfl

end ServiceState

/-- The finds of a service on handles. -/
def Service.finds (handles : Nat → Handle) :
    Coroutine ServiceState FindCall FindPending (Outcome (List Record)) where
  path call := (handles call.handle).database.path
  start := ServiceState.start
  resume := ServiceState.resume

namespace Service

/-- What a find has posted at its end, given how many records it loaded; nothing before. -/
def posted (loaded : Nat) : Phase FindPending (Outcome (List Record)) → Account
  | .finished result => ending loaded result
  | _ => 0

/-- The text by which a find is remembered, if it failed. -/
def failureOf? : Phase FindPending (Outcome (List Record)) → Option Text
  | .finished result => remembered? result
  | _ => none

end Service

/-! ### Single steps -/

namespace ServiceState

variable {s : ServiceState} {t : Account}

/-- How the first step of a find ends: with a failure that is not remembered, with
options that cannot be read, or waiting for the log. -/
theorem start_cases (s : ServiceState) (call : FindCall) :
    let m := (Service.beginFind s.metrics call.document).2
    (∃ failure : Failure, failure.remembered? = none ∧
      s.start call = ({ s with metrics := m }, .inr (.error failure))) ∨
    (∃ e loaded, s.start call = ({ s with metrics := Service.endFind m loaded (.error (.query e)) },
      .inr (.error (.query e)))) ∨
    ∃ options, QueryOptions.ofJson call.options = .ok options ∧
      s.start call = ({ s with metrics := m }, .inl ⟨call.handle, call.document, options⟩) := by
  have hfails := Service.remembered?_of_beginFind s.metrics call.document
  rw [start]
  rcases hbegin : Service.beginFind s.metrics call.document with ⟨failure | _, m⟩
  · exact Or.inl ⟨failure, hfails failure (by rw [hbegin]), rfl⟩
  · cases QueryOptions.ofJson call.options with
    | error e => exact Or.inr (Or.inl ⟨e, _, rfl⟩)
    | ok options => exact Or.inr (Or.inr ⟨options, rfl, rfl⟩)

/-- The first step of a find leaves the handles as they are. -/
theorem start_handles (s : ServiceState) (call : FindCall) :
    (s.start call).1.handles = s.handles := by
  rcases s.start_cases call with ⟨_, _, h⟩ | ⟨_, _, h⟩ | ⟨_, _, h⟩ <;> rw [h]

/-- A find that waits goes on with what it was asked. -/
theorem pending_of_start {call : FindCall} {pending : FindPending}
    (h : (s.start call).2 = .inl pending) :
    pending.handle = call.handle ∧ pending.document = call.document ∧
      QueryOptions.ofJson call.options = .ok pending.options := by
  rcases s.start_cases call with ⟨_, _, hstart⟩ | ⟨_, _, hstart⟩ | ⟨options, hoptions, hstart⟩
  · rw [hstart] at h
    cases h
  · rw [hstart] at h
    cases h
  · rw [hstart] at h
    cases h
    exact ⟨rfl, rfl, hoptions⟩

/-- A find finds nothing before the log is read. -/
theorem start_ne_found (s : ServiceState) (call : FindCall) (found : List Record) :
    (s.start call).2 ≠ .inr (.ok found) := by
  rcases s.start_cases call with ⟨_, _, hstart⟩ | ⟨_, _, hstart⟩ | ⟨_, _, hstart⟩ <;>
    · rw [hstart]
      exact nofun

/-- The first step of a find posts that it begins, and, if it ends with it, that it
ends. -/
theorem shows_start (h : s.metrics.Shows t) (call : FindCall) (loaded : Nat) (path : Path) :
    (s.start call).1.metrics.Shows (t + (Service.beginning call.document +
      Service.posted loaded (.afterStart path (s.start call).2))) := by
  have hbegin := Service.shows_beginFind h call.document
  rw [← add_assoc]
  rcases s.start_cases call with ⟨failure, hnone, hstart⟩ | ⟨e, held, hstart⟩ | ⟨_, _, hstart⟩
  · rw [hstart]
    simp only [Phase.afterStart, Service.posted, Service.ending, hnone, Option.isSome_none,
      Bool.toNat_false, Account.entry_zero, add_zero]
    exact hbegin
  · rw [hstart]
    exact Service.shows_endFind hbegin held (.error (.query e))
  · rw [hstart]
    simp only [Phase.afterStart, Service.posted, add_zero]
    exact hbegin

/-- The first step of a find remembers the error with which the find ends there, if it does. -/
theorem lastError_start (s : ServiceState) (call : FindCall) (path : Path) :
    (s.start call).1.metrics.lastError =
      (Service.failureOf? (.afterStart path (s.start call).2)).or s.metrics.lastError := by
  have hbegin := Service.lastError_beginFind s.metrics call.document
  rcases s.start_cases call with ⟨failure, hnone, hstart⟩ | ⟨e, _, hstart⟩ | ⟨_, _, hstart⟩
  · rw [hstart]
    simp only [Phase.afterStart, Service.failureOf?, Service.remembered?, hnone, Option.none_or]
    exact hbegin
  · rw [hstart]
    simp only [Service.lastError_endFind, hbegin]
    rfl
  · rw [hstart]
    exact hbegin

/-- What the second step of a find posts: the records of its own load, if that and the
query succeed. -/
theorem shows_resume (h : s.metrics.Shows t) (pending : FindPending) (reading : LogReading) :
    let loaded := ((s.handles pending.handle).database.load reading).toOption.getD []
    (s.resume pending reading).1.metrics.Shows
      (t + Service.ending loaded.length (s.resume pending reading).2) := by
  simp only [resume, Handle.findWith, Database.findWith, Handle.afterReading]
  cases (s.handles pending.handle).database.load reading with
  | error failure => exact Service.shows_endFind h _ _
  | ok records => exact Service.shows_endFind h _ _

/-- The second step of a find remembers the error with which the find ends. -/
theorem lastError_resume (s : ServiceState) (pending : FindPending) (reading : LogReading) :
    (s.resume pending reading).1.metrics.lastError =
      (Service.remembered? (s.resume pending reading).2).or s.metrics.lastError :=
  Service.lastError_endFind _ _ _

/-- Handles stay on their databases. -/
theorem database_resume (s : ServiceState) (pending : FindPending) (reading : LogReading)
    (k : Nat) : ((s.resume pending reading).1.handles k).database = (s.handles k).database := by
  simp only [resume, Handle.findWith, Handle.afterReading, Function.update_apply]
  split
  · next hk =>
      rw [hk]
      cases (s.handles pending.handle).database.load reading <;> rfl
  · rfl

/-- The first step of a find adds only to the counters of queries and errors. -/
theorem counter_start (s : ServiceState) (call : FindCall) {name : Text}
    (hqueries : name ≠ "queries_total") (htext : name ≠ "text_queries_total")
    (herrors : name ≠ "errors_total") :
    (s.start call).1.metrics.counter name = s.metrics.counter name := by
  have hbegin := Service.counter_beginFind s.metrics call.document hqueries htext
  rcases s.start_cases call with ⟨_, _, hstart⟩ | ⟨e, held, hstart⟩ | ⟨_, _, hstart⟩
  · rw [hstart]
    exact hbegin
  · rw [hstart]
    exact (Service.counter_endFind_error _ held (.query e) herrors).trans hbegin
  · rw [hstart]
    exact hbegin

/-- A find that fails adds only to the counter of errors. -/
theorem counter_resume (s : ServiceState) (pending : FindPending) (reading : LogReading)
    (hfails : ∀ found, (s.resume pending reading).2 ≠ .ok found) {name : Text}
    (herrors : name ≠ "errors_total") :
    (s.resume pending reading).1.metrics.counter name = s.metrics.counter name := by
  cases hresult : (s.resume pending reading).2 with
  | ok found => exact absurd hresult (hfails found)
  | error failure =>
      have hmetrics : (s.resume pending reading).1.metrics = Service.endFind s.metrics
          ((s.handles pending.handle).afterReading reading).records.length (.error failure) :=
        congrArg (Service.endFind s.metrics _) hresult
      rw [hmetrics, Service.counter_endFind_error _ _ failure herrors]

end ServiceState

end RecordLog
