import Mathlib.Logic.Function.Basic
import RecordLog.Database

/-!
# Interleaved calls

Many calls run side by side on one shared state.  A call runs without interruption
until it has to read a file; then it waits, and other calls run.  When the reading
is done and the call is resumed, it runs to its end.  So a call consists of two
steps on the state, and of a reading in between, which sees whatever the disk
holds at that moment.  The disk may change at any time.

`Step` is this system, and `Reached` its histories: lists of events, the latest
first.  What a call was asked and what its own reading gave can be read off the
history alone (`callOf?`, `readingOf?`).  `Reached.explained` says that every
phase of every call is what these two determine, up to the states in which the
two steps of the call happened to find the shared state.
-/

namespace RecordLog

/-- Calls on a shared state that wait at most once, for the reading of a file. -/
structure Coroutine (State Call Pending Result : Type) where
  /-- The file that a call reads. -/
  path : Call → Path
  /-- What a call does before it waits.  It may end there. -/
  start : State → Call → State × (Pending ⊕ Result)
  /-- What it does after it waited, with what the reading gave. -/
  resume : State → Pending → LogReading → State × Result

/-- How far a call has come. -/
inductive Phase (Pending Result : Type) where
  | idle
  /-- Started, and waiting for the reading of a file. -/
  | waiting (path : Path) (pending : Pending)
  /-- The reading is done. -/
  | ready (pending : Pending) (reading : LogReading)
  | finished (result : Result)

/-- What happens next.  Calls are told apart by number. -/
inductive Event (Call : Type) where
  | start (i : Nat) (call : Call)
  | read (i : Nat)
  | resume (i : Nat)
  /-- Someone writes, removes or makes files. -/
  | change (disk : Disk)

/-- The shared state, the disk, and the phases of all calls. -/
structure World (State Pending Result : Type) where
  state : State
  disk : Disk
  phase : Nat → Phase Pending Result

section

variable {State Call Pending Result : Type}

/-- The phase after the first step of a call. -/
def Phase.afterStart (path : Path) : Pending ⊕ Result → Phase Pending Result
  | .inl pending => .waiting path pending
  | .inr result => .finished result

variable (P : Coroutine State Call Pending Result)

/-- One event changes the world.  A call is started once, reads once, and is resumed
once. -/
inductive Step : World State Pending Result → Event Call → World State Pending Result → Prop
  | start {w : World State Pending Result} {i : Nat} (call : Call) (hi : w.phase i = .idle) :
      Step w (.start i call)
        ⟨(P.start w.state call).1, w.disk, Function.update w.phase i
          (.afterStart (P.path call) (P.start w.state call).2)⟩
  | read {w : World State Pending Result} {i : Nat} {path : Path} {pending : Pending}
      (hi : w.phase i = .waiting path pending) :
      Step w (.read i)
        ⟨w.state, w.disk, Function.update w.phase i (.ready pending (w.disk.read path))⟩
  | resume {w : World State Pending Result} {i : Nat} {pending : Pending} {reading : LogReading}
      (hi : w.phase i = .ready pending reading) :
      Step w (.resume i)
        ⟨(P.resume w.state pending reading).1, w.disk, Function.update w.phase i
          (.finished (P.resume w.state pending reading).2)⟩
  | change {w : World State Pending Result} (disk : Disk) :
      Step w (.change disk) ⟨w.state, disk, w.phase⟩

/-- The worlds that a history leads to, from a state without calls.  Histories list
the latest event first. -/
inductive Reached (s₀ : State) (d₀ : Disk) :
    List (Event Call) → World State Pending Result → Prop
  | begin : Reached s₀ d₀ [] ⟨s₀, d₀, fun _ => .idle⟩
  | step {past : List (Event Call)} {w w' : World State Pending Result} {e : Event Call}
      (before : Reached s₀ d₀ past w) (now : Step P w e w') : Reached s₀ d₀ (e :: past) w'

/-! ### What a history tells -/

/-- What call number `i` was asked. -/
def callOf? (i : Nat) : List (Event Call) → Option Call
  | [] => none
  | .start j call :: past => if j = i then some call else callOf? i past
  | _ :: past => callOf? i past

/-- The disk after a history. -/
def diskAfter (d₀ : Disk) : List (Event Call) → Disk
  | [] => d₀
  | .change disk :: _ => disk
  | _ :: past => diskAfter d₀ past

/-- What the reading of call number `i` gave. -/
def readingOf? (d₀ : Disk) (i : Nat) : List (Event Call) → Option LogReading
  | [] => none
  | .read j :: past =>
    if j = i then (callOf? i past).map fun call => (diskAfter d₀ past).read (P.path call)
    else readingOf? d₀ i past
  | _ :: past => readingOf? d₀ i past

/-! ### Explained phases -/

/-- The phase of a call is determined by what it was asked and by its own reading,
apart from the shared states in which it was started and resumed.  All that is
said of these states is the invariant `I`. -/
def Phase.Explained (I : State → Prop) (call? : Option Call) (reading? : Option LogReading) :
    Phase Pending Result → Prop
  | .idle => call? = none ∧ reading? = none
  | .waiting path pending =>
    ∃ call s, call? = some call ∧ reading? = none ∧ path = P.path call ∧
      I s ∧ (P.start s call).2 = .inl pending
  | .ready pending reading =>
    ∃ call s, call? = some call ∧ reading? = some reading ∧
      I s ∧ (P.start s call).2 = .inl pending
  | .finished result =>
    ∃ call s, call? = some call ∧ I s ∧
      ((P.start s call).2 = .inr result ∧ reading? = none ∨
        ∃ pending reading t, (P.start s call).2 = .inl pending ∧ reading? = some reading ∧
          I t ∧ (P.resume t pending reading).2 = result)

variable {P} {s₀ : State} {d₀ : Disk} {past : List (Event Call)}
  {w : World State Pending Result} {I : State → Prop}

theorem Reached.disk_eq (h : Reached P s₀ d₀ past w) : w.disk = diskAfter d₀ past := by
  induction h with
  | begin => rfl
  | step _ now ih => cases now <;> first | exact ih | rfl

/-- An invariant of the two steps of calls holds of the shared state forever. -/
theorem Reached.invariant (h : Reached P s₀ d₀ past w) (hbegin : I s₀)
    (hstart : ∀ s call, I s → I (P.start s call).1)
    (hresume : ∀ s pending reading, I s → I (P.resume s pending reading).1) : I w.state := by
  induction h with
  | begin => exact hbegin
  | step _ now ih =>
      cases now with
      | start call hi => exact hstart _ _ ih
      | read hi => exact ih
      | resume hi => exact hresume _ _ _ ih
      | change disk => exact ih

/-! ### Events of other calls -/

/-- The call that an event is a step of. -/
def Event.call? : Event Call → Option Nat
  | .start i _ => some i
  | .read i => some i
  | .resume i => some i
  | .change _ => none

/-- A call stays in its phase while other calls take their steps. -/
theorem Step.phase_of_ne {e : Event Call} {w' : World State Pending Result}
    (now : Step P w e w') {i : Nat} (hi : e.call? ≠ some i) : w'.phase i = w.phase i := by
  have hne : ∀ j, e.call? = some j → i ≠ j := by
    rintro j hj rfl
    exact hi hj
  cases now with
  | @start j call hj => exact Function.update_of_ne (hne j rfl) _ _
  | @read j path pending hj => exact Function.update_of_ne (hne j rfl) _ _
  | @resume j pending reading hj => exact Function.update_of_ne (hne j rfl) _ _
  | change disk => rfl

/-- A call that has ended takes no step. -/
theorem Step.phase_of_finished {e : Event Call} {w' : World State Pending Result}
    (now : Step P w e w') {i : Nat} {result : Result} (hi : w.phase i = .finished result) :
    e.call? ≠ some i := by
  rintro he
  cases now with
  | start call hidle =>
      obtain rfl := Option.some.inj he
      rw [hidle] at hi
      cases hi
  | read hwaiting =>
      obtain rfl := Option.some.inj he
      rw [hwaiting] at hi
      cases hi
  | resume hready =>
      obtain rfl := Option.some.inj he
      rw [hready] at hi
      cases hi
  | change disk => cases he

theorem callOf?_of_ne {e : Event Call} {i : Nat} (hi : e.call? ≠ some i) :
    callOf? i (e :: past) = callOf? i past := by
  cases e with
  | start j call => exact if_neg fun h => hi (congrArg some h)
  | read j => rfl
  | resume j => rfl
  | change disk => rfl

theorem readingOf?_of_ne {e : Event Call} {i : Nat} (hi : e.call? ≠ some i) :
    readingOf? P d₀ i (e :: past) = readingOf? P d₀ i past := by
  cases e with
  | start j call => rfl
  | read j => exact if_neg fun h => hi (congrArg some h)
  | resume j => rfl
  | change disk => rfl

/-- **Phases are explained by histories.** -/
theorem Reached.explained (h : Reached P s₀ d₀ past w) (hbegin : I s₀)
    (hstart : ∀ s call, I s → I (P.start s call).1)
    (hresume : ∀ s pending reading, I s → I (P.resume s pending reading).1) (i : Nat) :
    (w.phase i).Explained P I (callOf? i past) (readingOf? P d₀ i past) := by
  induction h with
  | begin => exact ⟨rfl, rfl⟩
  | @step past w w' e before now ih =>
      have hstate : I w.state := before.invariant hbegin hstart hresume
      by_cases hi : e.call? = some i
      · cases now with
        | start call hidle =>
            obtain rfl := Option.some.inj hi
            rw [hidle] at ih
            simp only [Function.update_self, callOf?, readingOf?, if_true]
            cases hs : (P.start w.state call).2 with
            | inl pending => exact ⟨call, w.state, rfl, ih.2, rfl, hstate, hs⟩
            | inr result => exact ⟨call, w.state, rfl, hstate, Or.inl ⟨hs, ih.2⟩⟩
        | read hwaiting =>
            obtain rfl := Option.some.inj hi
            rw [hwaiting] at ih
            obtain ⟨call, s, hcall, _, hpath, hs, hpending⟩ := ih
            simp only [Function.update_self, callOf?, readingOf?, if_true, hcall, hpath,
              before.disk_eq]
            exact ⟨call, s, rfl, rfl, hs, hpending⟩
        | @resume _ pending reading hready =>
            obtain rfl := Option.some.inj hi
            rw [hready] at ih
            obtain ⟨call, s, hcall, hreading, hs, hpending⟩ := ih
            simp only [Function.update_self, callOf?, readingOf?]
            exact ⟨call, s, hcall, hs, Or.inr
              ⟨pending, reading, w.state, hpending, hreading, hstate, rfl⟩⟩
        | change disk => cases hi
      · rw [now.phase_of_ne hi, callOf?_of_ne hi, readingOf?_of_ne hi]
        exact ih

/-! ### The calls of a history -/

/-- The calls that were started, with their numbers, the latest first. -/
def startedCalls : List (Event Call) → List (Nat × Call)
  | [] => []
  | .start i call :: past => (i, call) :: startedCalls past
  | _ :: past => startedCalls past

theorem mem_startedCalls {i : Nat} {call : Call} {past : List (Event Call)}
    (h : callOf? i past = some call) : (i, call) ∈ startedCalls past := by
  induction past with
  | nil => cases h
  | cons e past ih =>
      cases e with
      | start j other =>
          rw [callOf?] at h
          split at h
          · next hj =>
              obtain rfl := hj
              obtain rfl := Option.some.inj h
              exact List.mem_cons_self
          · exact List.mem_cons_of_mem _ (ih h)
      | read j => exact ih h
      | resume j => exact ih h
      | change disk => exact ih h

theorem notMem_startedCalls {i : Nat} {past : List (Event Call)} (h : callOf? i past = none) :
    i ∉ (startedCalls past).map Prod.fst := by
  induction past with
  | nil => exact List.not_mem_nil
  | cons e past ih =>
      cases e with
      | start j other =>
          rw [callOf?] at h
          split at h
          · cases h
          · next hj =>
              rw [startedCalls, List.map_cons, List.mem_cons, not_or]
              exact ⟨Ne.symm hj, ih h⟩
      | read j => exact ih h
      | resume j => exact ih h
      | change disk => exact ih h

/-- A call that is idle was not started yet. -/
theorem Reached.callOf?_of_idle (h : Reached P s₀ d₀ past w) {i : Nat} (hi : w.phase i = .idle) :
    callOf? i past = none := by
  have hexplained := h.explained (I := fun _ => True) trivial (fun _ _ _ => trivial)
    (fun _ _ _ _ => trivial) i
  rw [hi] at hexplained
  exact hexplained.1

/-- No number is given twice. -/
theorem Reached.nodup_startedCalls (h : Reached P s₀ d₀ past w) :
    ((startedCalls past).map Prod.fst).Nodup := by
  induction h with
  | begin => exact List.nodup_nil
  | step before now ih =>
      cases now with
      | start call hi =>
          exact List.nodup_cons.mpr ⟨notMem_startedCalls (before.callOf?_of_idle hi), ih⟩
      | read hi => exact ih
      | resume hi => exact ih
      | change disk => exact ih

/-- A started call is the call that has its number. -/
theorem Reached.callOf?_of_mem (h : Reached P s₀ d₀ past w) {i : Nat} {call : Call}
    (hmem : (i, call) ∈ startedCalls past) : callOf? i past = some call := by
  induction h with
  | begin => cases hmem
  | step before now ih =>
      cases now with
      | @start j other hidle =>
          rcases List.mem_cons.mp hmem with heq | hmem
          · cases heq
            exact if_pos rfl
          · have hne : j ≠ i := by
              rintro rfl
              exact notMem_startedCalls (before.callOf?_of_idle hidle)
                (List.mem_map_of_mem hmem)
            rw [callOf?, if_neg hne]
            exact ih hmem
      | read hi => exact ih hmem
      | resume hi => exact ih hmem
      | change disk => exact ih hmem

end

end RecordLog
