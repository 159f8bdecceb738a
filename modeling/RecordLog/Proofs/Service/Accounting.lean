import RecordLog.Proofs.Service.Posting

/-!
# The account of finds

Finds on any number of handles run side by side, and all of them count into the metrics
of one service.  Between the two steps of a find other finds take theirs, so a count is
right only if each step posts what belongs to its own find.

* `callAccount` is what a find has posted in a world, which its phase and its own reading
  determine, and `total` is the sum over all finds;
* `Step.shows` says that one event keeps the counters and the total equal, and
  `Reached.shows` that a whole run does; `Reached.lastError_eq` follows the failures;
* `finds_accounted` reads the five counters off it.
-/

namespace RecordLog

/-! ### What a find has posted -/

namespace Service

variable (handles : Nat → Handle) (d₀ : Disk) (past : List (Event FindCall))
  (w : World ServiceState FindPending (Outcome (List Record)))

/-- The records that the load of a find gave, by its own reading. -/
def ownLoad? (c : Nat × FindCall) : Option (List Record) :=
  (readingOf? (finds handles) d₀ c.1 past).bind fun reading =>
    ((handles c.2.handle).database.load reading).toOption

/-- How many records a find loaded. -/
def ownLoaded (c : Nat × FindCall) : Nat :=
  ((ownLoad? handles d₀ past c).getD []).length

/-- All that a find has posted. -/
def callAccount (c : Nat × FindCall) : Account :=
  beginning c.2.document + posted (ownLoaded handles d₀ past c) (w.phase c.1)

/-- All that was posted. -/
def total : Account :=
  fun name => ((startedCalls past).map fun c => callAccount handles d₀ past w c name).sum

/-- The text of the failure that came last: that of the latest step of a find that has
failed, since a find takes no step after the one with which it fails. -/
def lastFailure? : Option Text :=
  past.findSome? fun e => e.call?.bind fun i => failureOf? (w.phase i)

end Service

/-! ### Runs -/

/-- If one call of many posts more, the sum grows by that much. -/
theorem sum_map_of_changed {calls : List (Nat × FindCall)} {c : Nat × FindCall}
    {f g : Nat × FindCall → Nat} {more : Nat} (hnodup : (calls.map Prod.fst).Nodup)
    (hc : c ∈ calls) (hsame : ∀ other, other.1 ≠ c.1 → g other = f other)
    (hmore : g c = f c + more) : (calls.map g).sum = (calls.map f).sum + more := by
  induction calls with
  | nil => cases hc
  | cons first later ih =>
      rw [List.map_cons, List.nodup_cons] at hnodup
      rw [List.map_cons, List.map_cons, List.sum_cons, List.sum_cons]
      rcases List.mem_cons.mp hc with rfl | hc
      · have hlater : later.map g = later.map f := by
          refine List.map_congr_left fun other hother => hsame other fun heq => ?_
          exact hnodup.1 (List.mem_map.mpr ⟨other, hother, heq⟩)
        rw [hmore, hlater]
        omega
      · have hfirst : g first = f first := by
          refine hsame first fun heq => hnodup.1 ?_
          exact heq ▸ List.mem_map_of_mem hc
        rw [hfirst, ih hnodup.2 hc]
        omega

section

open Service

variable {handles : Nat → Handle} {m₀ : Metrics} {d₀ : Disk} {past : List (Event FindCall)}
  {w w' : World ServiceState FindPending (Outcome (List Record))} {e : Event FindCall}

/-- Handles stay on their databases, and every phase is explained by the find and its
reading. -/
theorem Reached.explained_finds (h : Reached (finds handles) ⟨m₀, handles⟩ d₀ past w) :
    (∀ k, (w.state.handles k).database = (handles k).database) ∧
    ∀ i, (w.phase i).Explained (finds handles)
      (fun s => ∀ k, (s.handles k).database = (handles k).database) (callOf? i past)
      (readingOf? (finds handles) d₀ i past) := by
  have hstart : ∀ (s : ServiceState) (call : FindCall),
      (∀ k, (s.handles k).database = (handles k).database) →
      ∀ k, ((s.start call).1.handles k).database = (handles k).database := by
    intro s call hs k
    rw [s.start_handles call, hs]
  have hresume : ∀ (s : ServiceState) (pending : FindPending) (reading : LogReading),
      (∀ k, (s.handles k).database = (handles k).database) →
      ∀ k, ((s.resume pending reading).1.handles k).database = (handles k).database := by
    intro s pending reading hs k
    rw [s.database_resume pending reading k, hs]
  exact ⟨h.invariant (fun _ => rfl) hstart hresume, h.explained (fun _ => rfl) hstart hresume⟩

/-- A find that waits for nothing more than to be resumed has its own handle and its own
reading. -/
theorem Reached.of_ready (h : Reached (finds handles) ⟨m₀, handles⟩ d₀ past w) {i : Nat}
    {pending : FindPending} {reading : LogReading} (hi : w.phase i = .ready pending reading) :
    ∃ call, (i, call) ∈ startedCalls past ∧ pending.handle = call.handle ∧
      readingOf? (finds handles) d₀ i past = some reading := by
  have hexplained := h.explained_finds.2 i
  rw [hi] at hexplained
  obtain ⟨call, s, hcall, hreading, _, hstart⟩ := hexplained
  exact ⟨call, mem_startedCalls hcall, (ServiceState.pending_of_start hstart).1, hreading⟩

/-- An event does not touch what other finds have posted. -/
theorem Step.callAccount_of_ne (now : Step (finds handles) w e w') {c : Nat × FindCall}
    (hc : e.call? ≠ some c.1) :
    callAccount handles d₀ (e :: past) w' c = callAccount handles d₀ past w c := by
  simp only [callAccount, ownLoaded, ownLoad?, now.phase_of_ne hc, readingOf?_of_ne hc]

/-- A call that is started adds what it posts. -/
theorem total_start {i : Nat} {call : FindCall} (hfresh : i ∉ (startedCalls past).map Prod.fst)
    (hothers : ∀ c, c.1 ≠ i → callAccount handles d₀ (.start i call :: past) w' c =
      callAccount handles d₀ past w c) :
    total handles d₀ (.start i call :: past) w' =
      total handles d₀ past w + callAccount handles d₀ (.start i call :: past) w' (i, call) := by
  have hsame : ∀ c ∈ startedCalls past, callAccount handles d₀ (.start i call :: past) w' c =
      callAccount handles d₀ past w c := by
    refine fun c hc => hothers c fun heq => hfresh ?_
    exact heq ▸ List.mem_map_of_mem hc
  funext name
  rw [Pi.add_apply, total, startedCalls, List.map_cons, List.sum_cons, add_comm]
  congr 2
  exact List.map_congr_left fun c hc => congrFun (hsame c hc) name

/-- A later step of a call adds what it posts with it. -/
theorem total_of_posted {c : Nat × FindCall} {more : Account}
    (hstarted : startedCalls (e :: past) = startedCalls past)
    (hnodup : ((startedCalls past).map Prod.fst).Nodup) (hc : c ∈ startedCalls past)
    (hothers : ∀ other, other.1 ≠ c.1 → callAccount handles d₀ (e :: past) w' other =
      callAccount handles d₀ past w other)
    (hmore : callAccount handles d₀ (e :: past) w' c = callAccount handles d₀ past w c + more) :
    total handles d₀ (e :: past) w' = total handles d₀ past w + more := by
  funext name
  rw [Pi.add_apply, total, hstarted]
  exact sum_map_of_changed hnodup hc (fun other hne => congrFun (hothers other hne) name)
    (congrFun hmore name)

/-- **One event** keeps the counters and what was posted equal. -/
theorem Step.shows (before : Reached (finds handles) ⟨m₀, handles⟩ d₀ past w)
    (now : Step (finds handles) w e w') (h : w.state.metrics.Shows (total handles d₀ past w)) :
    w'.state.metrics.Shows (total handles d₀ (e :: past) w') := by
  have hothers : ∀ i, e.call? = some i → ∀ c, c.1 ≠ i →
      callAccount handles d₀ (e :: past) w' c = callAccount handles d₀ past w c := by
    intro i hi c hc
    refine now.callAccount_of_ne ?_
    rw [hi]
    exact fun heq => hc (Option.some.inj heq).symm
  cases now with
  | @start i call hi =>
      have hfresh := notMem_startedCalls (before.callOf?_of_idle hi)
      rw [total_start hfresh (hothers i rfl), callAccount]
      simp only [Function.update_self]
      exact ServiceState.shows_start h call _ _
  | @read i path pending hi =>
      -- a find posts nothing while it waits, whatever its reading gives
      have hsame : ∀ c, callAccount handles d₀ (.read i :: past)
          ⟨w.state, w.disk, Function.update w.phase i (.ready pending (w.disk.read path))⟩ c =
          callAccount handles d₀ past w c := by
        intro c
        by_cases hc : c.1 = i
        · simp only [callAccount, hc, Function.update_self, hi, posted]
        · exact hothers i rfl c hc
      have htotal : total handles d₀ (.read i :: past) _ = total handles d₀ past w :=
        funext fun name =>
          congrArg List.sum (List.map_congr_left fun c _ => congrFun (hsame c) name)
      rw [htotal]
      exact h
  | @resume i pending reading hi =>
      obtain ⟨call, hcall, hhandle, hreading⟩ := before.of_ready hi
      have hloaded : ((w.state.handles pending.handle).database.load reading).toOption.getD [] =
          (ownLoad? handles d₀ (.resume i :: past) (i, call)).getD [] := by
        have hreading' : readingOf? (finds handles) d₀ i (.resume i :: past) = some reading :=
          hreading
        rw [ownLoad?, hreading', Option.bind_some, hhandle, before.explained_finds.1]
      have hshows := ServiceState.shows_resume h pending reading
      rw [hloaded] at hshows
      rw [total_of_posted rfl before.nodup_startedCalls hcall (hothers i rfl)]
      · exact hshows
      · simp only [callAccount, Function.update_self, hi, posted, add_zero]
        rfl
  | change disk => exact h

/-- The counters show the totals of all calls in every state that is reached. -/
theorem Reached.shows (h : Reached (finds handles) ⟨m₀, handles⟩ d₀ past w)
    (hzero : ∀ name, m₀.counter name = .zero) :
    w.state.metrics.Shows (total handles d₀ past w) := by
  induction h with
  | begin => exact Metrics.shows_zero hzero
  | step before now ih => exact now.shows before ih

/-! ### The last failure -/

/-- A call that has not finished has not failed. -/
theorem failureOf?_of_unfinished {phase : Phase FindPending (Outcome (List Record))}
    (h : ∀ result, phase ≠ .finished result) : failureOf? phase = none := by
  cases phase with
  | finished result => exact absurd rfl (h result)
  | _ => rfl

/-- An event leaves the last error as it is, unless a find fails with it. -/
theorem Step.lastError_eq (now : Step (finds handles) w e w') :
    w'.state.metrics.lastError =
      (e.call?.bind fun i => failureOf? (w'.phase i)).or w.state.metrics.lastError := by
  cases now with
  | start call hi =>
      simp only [Event.call?, Option.bind_some, Function.update_self]
      exact ServiceState.lastError_start _ _ _
  | read hi =>
      simp only [Event.call?, Option.bind_some, Function.update_self]
      rfl
  | resume hi =>
      simp only [Event.call?, Option.bind_some, Function.update_self]
      exact ServiceState.lastError_resume _ _ _
  | change disk => rfl

/-- An event with which no find fails does not change which finds have failed. -/
theorem Step.failureOf?_eq (now : Step (finds handles) w e w')
    (hnone : (e.call?.bind fun i => failureOf? (w'.phase i)) = none) (i : Nat) :
    failureOf? (w'.phase i) = failureOf? (w.phase i) := by
  by_cases hi : e.call? = some i
  · rw [hi, Option.bind_some] at hnone
    rw [hnone, failureOf?_of_unfinished fun result hresult => now.phase_of_finished hresult hi]
  · rw [now.phase_of_ne hi]

/-- The last error is that of the last find that failed with one, or else the first. -/
theorem Reached.lastError_eq (h : Reached (finds handles) ⟨m₀, handles⟩ d₀ past w) :
    w.state.metrics.lastError = (lastFailure? past w).or m₀.lastError := by
  induction h with
  | begin => rfl
  | @step past w w' e before now ih =>
      rw [now.lastError_eq, ih]
      simp only [lastFailure?, List.findSome?_cons]
      cases hfailure : e.call?.bind fun i => failureOf? (w'.phase i) with
      | some message => rfl
      | none =>
          simp only [Option.none_or, now.failureOf?_eq hfailure]

/-! ### Single counters -/

/-- Whether a find has failed. -/
def Service.failed : Phase FindPending (Outcome (List Record)) → Bool
  | .finished (.error _) => true
  | _ => false

/-- What a find has found, if it has succeeded. -/
def Service.found? : Phase FindPending (Outcome (List Record)) → Option (List Record)
  | .finished (.ok found) => some found
  | _ => none

/-- What a find has posted for each of the counters, if its failure is one that is
remembered. -/
theorem callAccount_counters (handles : Nat → Handle) (d₀ : Disk)
    (past : List (Event FindCall))
    (w : World ServiceState FindPending (Outcome (List Record))) (c : Nat × FindCall)
    (hfailure : ∀ failure, w.phase c.1 = .finished (.error failure) →
      failure.remembered?.isSome) :
    let account := callAccount handles d₀ past w c
    account "queries_total" = 1 ∧
    account "text_queries_total" = (countsAsWords c.2.document).toNat ∧
    account "errors_total" = (failed (w.phase c.1)).toNat ∧
    account "records_loaded_total" =
      (if (found? (w.phase c.1)).isSome then ownLoaded handles d₀ past c else 0) ∧
    account "matches_total" = ((found? (w.phase c.1)).getD []).length := by
  intro account
  simp +decide only [account, callAccount, beginning, Pi.add_apply, Account.entry, if_true,
    if_false, Nat.add_zero, Nat.zero_add]
  cases hphase : w.phase c.1 with
  | finished result =>
      cases result with
      | ok found =>
          simp +decide [posted, ending, failed, found?, Account.entry]
      | error failure =>
          simp +decide [posted, ending, failed, found?, Account.entry, hfailure failure hphase]
  | _ => simp [posted, failed, found?]

/-- Ones and zeros add up to the number of ones. -/
theorem sum_map_toNat {α : Type} (p : α → Bool) (l : List α) :
    (l.map fun a => (p a).toNat).sum = l.countP p := by
  induction l with
  | nil => rfl
  | cons a l ih =>
      rw [List.map_cons, List.sum_cons, ih, List.countP_cons, Nat.add_comm]
      cases p a <;> rfl

/-- A find that has succeeded has loaded the records of its own reading. -/
theorem Reached.ownLoad?_of_found (h : Reached (finds handles) ⟨m₀, handles⟩ d₀ past w)
    {c : Nat × FindCall} (hc : c ∈ startedCalls past) {found : List Record}
    (hfound : w.phase c.1 = .finished (.ok found)) :
    ∃ reading records, readingOf? (finds handles) d₀ c.1 past = some reading ∧
      (handles c.2.handle).database.load reading = .ok records ∧
      (handles c.2.handle).database.find c.2.document c.2.options reading = .ok found := by
  have hexplained := h.explained_finds.2 c.1
  rw [hfound, h.callOf?_of_mem hc] at hexplained
  obtain ⟨call, s, hcall, _, hends⟩ := hexplained
  obtain rfl := Option.some.inj hcall
  obtain ⟨hstart, _⟩ | ⟨pending, reading, t, hstart, hreading, ht, hresume⟩ := hends
  · exact absurd hstart (s.start_ne_found c.2 found)
  · obtain ⟨hhandle, hdocument, hoptions⟩ := ServiceState.pending_of_start hstart
    have hanswer : (handles c.2.handle).database.findWith c.2.document pending.options reading =
        .ok found := by
      rw [← hhandle, ← ht, ← hdocument]
      exact hresume
    have hload : ∃ records, (handles c.2.handle).database.load reading = .ok records := by
      rw [Database.findWith] at hanswer
      cases hload : (handles c.2.handle).database.load reading with
      | error failure =>
          rw [hload] at hanswer
          cases hanswer
      | ok records => exact ⟨records, rfl⟩
    obtain ⟨records, hrecords⟩ := hload
    refine ⟨reading, records, hreading, hrecords, ?_⟩
    rw [Database.find, hoptions]
    exact hanswer


/-- A step with which no find succeeds adds nothing to what was loaded and what
matched. -/
theorem Step.counter_eq (now : Step (finds handles) w e w')
    (hfails : ∀ i found, e.call? = some i → w'.phase i ≠ .finished (.ok found)) {name : Text}
    (hqueries : name ≠ "queries_total") (htext : name ≠ "text_queries_total")
    (herrors : name ≠ "errors_total") :
    w'.state.metrics.counter name = w.state.metrics.counter name := by
  cases now with
  | start call hi => exact ServiceState.counter_start _ _ hqueries htext herrors
  | read hi => rfl
  | @resume i pending reading hi =>
      refine ServiceState.counter_resume _ _ _ (fun found hfound => ?_) herrors
      refine hfails i found rfl ?_
      simp only [Function.update_self]
      exact congrArg Phase.finished hfound
  | change disk => rfl

end

/-- Whether a query is a search for words: its first key says so. -/
def Service.firstKeyIsWords : Json → Bool
  | .obj ((key, _) :: _) => key = Query.wordsKey
  | _ => false

/-- A document that may be a query counts as a search for words by its first key. -/
theorem Service.countsAsWords_eq {document : Json}
    (h : document = .null ∨ ∃ members, document = .obj members) :
    countsAsWords document = firstKeyIsWords document := by
  rcases h with rfl | ⟨members, rfl⟩
  · rfl
  · cases members with
    | nil => rfl
    | cons member later => rfl

section

open Service

/-- **Finds are accounted for.**  Take any history of finds on any handles, whose steps and
changes of the disk are interleaved in any way, from counters that are all zero, with
queries that are objects or missing, and in which finds have failed only for a query, a
log or a file.  At every moment, so also when all finds have ended:

* the counters of queries, searches for words and errors are the numbers of finds that were
  begun, whose query has the first key for words, and that have failed;
* the counters of loaded records and of matches are sums over the finds that have succeeded,
  of the number of records that the find's own reading gave, and of the number of records
  that it answered; its answer is that of the database for its own reading;
* the last error is that of the find that failed last;
* a step with which no find succeeds adds nothing to what was loaded or matched.

Each number is exact as long as it is below 2^53. -/
theorem finds_accounted (handles : Nat → Handle) (m₀ : Metrics) (d₀ : Disk)
    (hzero : ∀ name, m₀.counter name = .zero) {past : List (Event FindCall)}
    {w : World ServiceState FindPending (Outcome (List Record))}
    (h : Reached (finds handles) ⟨m₀, handles⟩ d₀ past w)
    (hdocuments : ∀ c ∈ startedCalls past,
      c.2.document = .null ∨ ∃ members, c.2.document = .obj members)
    (hfailures : ∀ i failure, w.phase i = .finished (.error failure) →
      (∃ e, failure = .query e) ∨ ∃ e, failure = .storage e) :
    let calls := startedCalls past
    let errors := calls.countP fun c => failed (w.phase c.1)
    let loaded := (calls.map fun c =>
      if (found? (w.phase c.1)).isSome then ownLoaded handles d₀ past c else 0).sum
    let matched := (calls.map fun c => ((found? (w.phase c.1)).getD []).length).sum
    let counter (name : Text) : Option Int := (w.state.metrics.counter name).toInt?
    (calls.length < twoTo 53 →
      counter "queries_total" = some ↑calls.length ∧
      counter "text_queries_total" = some ↑(calls.countP fun c => firstKeyIsWords c.2.document) ∧
      counter "errors_total" = some ↑errors) ∧
    (loaded < twoTo 53 → counter "records_loaded_total" = some ↑loaded) ∧
    (matched < twoTo 53 → counter "matches_total" = some ↑matched) ∧
    (∀ c ∈ calls, ∀ found, w.phase c.1 = .finished (.ok found) →
      ∃ reading records, readingOf? (finds handles) d₀ c.1 past = some reading ∧
        (handles c.2.handle).database.load reading = .ok records ∧
        ownLoaded handles d₀ past c = records.length ∧
        (handles c.2.handle).database.find c.2.document c.2.options reading = .ok found) ∧
    w.state.metrics.lastError = (lastFailure? past w).or m₀.lastError ∧
    ∀ e w', Step (finds handles) w e w' →
      (∀ i found, e.call? = some i → w'.phase i ≠ .finished (.ok found)) →
      w'.state.metrics.counter "records_loaded_total" =
          w.state.metrics.counter "records_loaded_total" ∧
        w'.state.metrics.counter "matches_total" = w.state.metrics.counter "matches_total" := by
  intro calls errors loaded matched counter
  have hshows := h.shows hzero
  have hcounts := fun c : Nat × FindCall =>
    callAccount_counters handles d₀ past w c fun failure hphase => by
      rcases hfailures c.1 failure hphase with ⟨e, rfl⟩ | ⟨e, rfl⟩ <;> rfl
  have hcounter : ∀ (name : Text) (n : Nat), total handles d₀ past w name = n → n < twoTo 53 →
      counter name = some ↑n := by
    rintro name _ rfl hsmall
    rw [← Double.toInt?_ofIntRounded hsmall, ← hshows name hsmall]
  have hsum : ∀ name (f : Nat × FindCall → Nat),
      (∀ c ∈ calls, callAccount handles d₀ past w c name = f c) →
      total handles d₀ past w name = (calls.map f).sum :=
    fun name f hf => congrArg List.sum (List.map_congr_left hf)
  refine ⟨fun hsmall => ?_, hcounter _ _ (hsum _ _ fun c _ => (hcounts c).2.2.2.1),
    hcounter _ _ (hsum _ _ fun c _ => (hcounts c).2.2.2.2), ?_, h.lastError_eq, ?_⟩
  · have hfew : ∀ p : Nat × FindCall → Bool, calls.countP p < twoTo 53 :=
      fun p => Nat.lt_of_le_of_lt List.countP_le_length hsmall
    refine ⟨hcounter _ _ ?_ hsmall, hcounter _ _ ?_ (hfew _), hcounter _ _ ?_ (hfew _)⟩
    · rw [hsum _ (fun _ => 1) fun c _ => (hcounts c).1, List.map_const', List.sum_replicate_nat,
        Nat.mul_one]
    · rw [← sum_map_toNat]
      refine hsum _ _ fun c hc => ?_
      rw [(hcounts c).2.1, countsAsWords_eq (hdocuments c hc)]
    · exact (hsum _ _ fun c _ => (hcounts c).2.2.1).trans (sum_map_toNat _ calls)
  · intro c hc found hfound
    obtain ⟨reading, records, hreading, hload, hfind⟩ := h.ownLoad?_of_found hc hfound
    refine ⟨reading, records, hreading, hload, ?_, hfind⟩
    simp only [ownLoaded, ownLoad?, hreading, Option.bind_some, hload, Except.toOption,
      Option.getD_some]
  · intro e w' now hfails
    exact ⟨now.counter_eq hfails (by decide) (by decide) (by decide),
      now.counter_eq hfails (by decide) (by decide) (by decide)⟩

end

/-- Three finds on two handles of one log.  The first reads it, the second finds it removed,
and the third has options that cannot be read; the first ends last. -/
theorem finds_accounted_removed_log :
    let db : Database := ⟨⟨.slash, ["db.log"]⟩, ["_id"], false⟩
    let handles : Nat → Handle := fun _ => .new db
    let log : Octets :=
      [0x45, 0x7B, 0x22, 0x5F, 0x69, 0x64, 0x22, 0x3A, 0x22, 0x78, 0x22, 0x7D]
    let d₀ : Disk := ⟨[(["db.log"], .file log)], []⟩
    let words : Json := .obj [("$text", .str "x")]
    let past : List (Event FindCall) :=
      [.resume 0, .start 2 ⟨1, .obj [], .int 1⟩, .resume 1, .read 1, .change ⟨[], []⟩, .read 0,
        .start 1 ⟨1, words, .null⟩, .start 0 ⟨0, .null, .null⟩]
    ∃ w, Reached (Service.finds handles) ⟨.zero, handles⟩ d₀ past w ∧
      (w.state.metrics.counter "queries_total").toInt? = some 3 ∧
      (w.state.metrics.counter "text_queries_total").toInt? = some 1 ∧
      (w.state.metrics.counter "errors_total").toInt? = some 2 ∧
      (w.state.metrics.counter "records_loaded_total").toInt? = some 1 ∧
      (w.state.metrics.counter "matches_total").toInt? = some 1 ∧
      w.state.metrics.lastError = some "InvalidQueryOptions: options must be an object" := by
  intro db handles log d₀ words past
  have begun : Reached (Service.finds handles) ⟨.zero, handles⟩ d₀ [] _ := .begin
  have started := (begun.step (.start (i := 0) ⟨0, .null, .null⟩ rfl)).step
    (.start (i := 1) ⟨1, words, .null⟩ rfl)
  have waited := ((started.step (.read (i := 0) rfl)).step (.change ⟨[], []⟩)).step
    (.read (i := 1) rfl)
  have failed := (waited.step (.resume (i := 1) rfl)).step
    (.start (i := 2) ⟨1, .obj [], .int 1⟩ rfl)
  have ended := failed.step (.resume (i := 0) rfl)
  have hdocuments : ∀ c ∈ startedCalls past,
      c.2.document = .null ∨ ∃ members, c.2.document = .obj members := by
    intro c hc
    simp only [past, startedCalls, List.mem_cons, List.not_mem_nil, or_false] at hc
    rcases hc with rfl | rfl | rfl
    · exact Or.inr ⟨_, rfl⟩
    · exact Or.inr ⟨_, rfl⟩
    · exact Or.inl rfl
  obtain ⟨hcounts, hloaded, hmatched, _, hlast, _⟩ :=
    finds_accounted handles .zero d₀ Metrics.counter_zero ended hdocuments fun i failure hi => by
      rcases i with _ | _ | _ | i
      · cases hi
      · cases hi
        exact Or.inr ⟨_, rfl⟩
      · cases hi
        exact Or.inl ⟨_, rfl⟩
      · cases hi
  obtain ⟨hqueries, htext, herrors⟩ := hcounts (by decide)
  exact ⟨_, ended, hqueries, htext, herrors, hloaded (by decide), hmatched (by decide), hlast⟩

end RecordLog
