import RecordLog.Events.Operation
import RecordLog.Proofs.Events.Stream
import RecordLog.Proofs.Json.Octets

/-!
# Calls and their events

A call of an operation is a call of its handler with one event after it, in every monad, so for
handlers that answer at once and for those that wait, and the outcome is passed on as it is
(`call_reports`).

The line of the event `Reports` the call.  `Succeeds` and `FailsWith` say how a call ends, which
is what the status of it is made of (`statusOf_ok_iff`, `statusOf_code_iff`).  `Gives` says which
value an additional field has, and each of them is by itself: what cannot be computed is left out
of the line, and the other fields are as they are.
-/

namespace RecordLog

/-! ### How a call ends -/

/-- A call succeeds: it returns a value that does not deny it, or a response of low status. -/
inductive Succeeds : Except Json Returned → Prop
  | value {v : Json}
      (fine : ∀ (members : Members) (said : Json), v = .obj members →
        members.get? "ok" = some said → said.truthy = true) :
      Succeeds (.ok (.value v))
  | response {status : Int} {body : Option Octets} (low : status < 400) :
      Succeeds (.ok (.response status body))

/-- A call fails, and has a code. -/
inductive FailsWith : Except Json Returned → Json → Prop
  /-- The code of the error that is raised. -/
  | error (code : Json) : FailsWith (.error code) code
  /-- The code in an object that denies success. -/
  | value {members : Members} {said code : Json} (denied : members.get? "ok" = some said)
      (falsy : said.truthy = false) (present : members.get? "code" = some code) :
      FailsWith (.ok (.value (.obj members))) code
  /-- The code in the body of a response of high status. -/
  | response {status : Int} {octets : Octets} {members : Members} {code : Json}
      (high : 400 ≤ status) (readable : Json.readOctets octets = .ok (.obj members))
      (present : members.get? "code" = some code) :
      FailsWith (.ok (.response status (some octets))) code

/-- A value that is not null differs from null. -/
theorem Json.null_ne {v : Json} (h : v.isNull = false) : Json.null ≠ v := by
  intro hsame
  rw [← hsame] at h
  cases h

/-- A member that is not null is found in both ways. -/
theorem Members.getOrNull_eq_iff {members : Members} {key : Text} {v : Json}
    (h : v.isNull = false) : members.getOrNull key = v ↔ members.get? key = some v := by
  rw [getOrNull]
  cases members.get? key with
  | none => exact iff_of_false (Json.null_ne h) nofun
  | some w => exact Option.some_inj.symm

namespace Returned

variable {code : Json}

/-- A code other than null is the member `code` of a body that reads as an object. -/
theorem bodyCode_eq_iff (h : code.isNull = false) {octets : Octets} :
    bodyCode (some octets) = code ↔
      ∃ members, Json.readOctets octets = .ok (.obj members) ∧
        Members.get? members "code" = some code := by
  rw [bodyCode]
  split
  · next members hread =>
      rw [Members.getOrNull_eq_iff h]
      constructor
      · intro hcode
        exact ⟨members, hread, hcode⟩
      · intro hbody
        obtain ⟨others, hothers, hcode⟩ := hbody
        obtain rfl := Json.obj.inj (Except.ok.inj (hread.symm.trans hothers))
        exact hcode
  · next hunread =>
      refine iff_of_false (Json.null_ne h) ?_
      intro hbody
      obtain ⟨members, hmembers, -⟩ := hbody
      exact hunread members hmembers

/-- A value that does not deny it is a success, and one that does is a failure with the code in
the value. -/
theorem status_value_cases (v : Json) :
    (Succeeds (.ok (.value v)) ∧ (value v).status = ⟨true, .null⟩) ∨
      ∃ (members : Members) (said : Json), v = .obj members ∧ members.get? "ok" = some said ∧
        said.truthy = false ∧ (value v).status = ⟨false, members.getOrNull "code"⟩ := by
  cases v with
  | obj members =>
      cases hsaid : Members.get? members "ok" with
      | none =>
          refine Or.inl ⟨.value ?_, ?_⟩
          · intro others said hobj hfound
            obtain rfl := Json.obj.inj hobj
            rw [hsaid] at hfound
            cases hfound
          · simp only [status, hsaid]
      | some said =>
          by_cases hfine : said.truthy = true
          · refine Or.inl ⟨.value ?_, ?_⟩
            · intro others other hobj hfound
              obtain rfl := Json.obj.inj hobj
              obtain rfl := Option.some.inj (hsaid.symm.trans hfound)
              exact hfine
            · simp only [status, hsaid, if_pos hfine]
          · refine Or.inr ⟨members, said, rfl, hsaid, eq_false_of_ne_true hfine, ?_⟩
            simp only [status, hsaid, if_neg hfine]
  | _ => exact Or.inl ⟨.value nofun, rfl⟩

end Returned

namespace Operation

variable {result : Except Json Returned} {code : Json}

/-- The status is one of success exactly if the call succeeds. -/
theorem statusOf_ok_iff : (statusOf result).ok = true ↔ Succeeds result := by
  match result with
  | .error code => exact iff_of_false nofun nofun
  | .ok (.response status body) =>
      by_cases hlow : status < 400
      · refine iff_of_true ?_ (.response hlow)
        simp only [statusOf, Returned.status, if_pos hlow]
      · refine iff_of_false ?_ ?_
        · simp only [statusOf, Returned.status, if_neg hlow]
          exact Bool.false_ne_true
        · intro h
          cases h with
          | response low => exact hlow low
  | .ok (.value v) =>
      rw [statusOf]
      obtain ⟨hfine, hstatus⟩ | ⟨members, said, rfl, hsaid, hfalsy, hstatus⟩ :=
        Returned.status_value_cases v
      · rw [hstatus]
        exact iff_of_true rfl hfine
      · rw [hstatus]
        refine iff_of_false Bool.false_ne_true ?_
        intro h
        cases h with
        | value fine =>
            rw [fine members said rfl hsaid] at hfalsy
            cases hfalsy

/-- The status has a code exactly if the call fails with it. -/
theorem statusOf_code_iff (h : code.isNull = false) :
    (statusOf result).code = code ↔ FailsWith result code := by
  have hnull : Json.null ≠ code := Json.null_ne h
  match result with
  | .error raised =>
      constructor
      · intro hcode
        obtain rfl : raised = code := hcode
        exact .error raised
      · intro hfails
        cases hfails with
        | error => rfl
  | .ok (.response status body) =>
      rw [statusOf, Returned.status]
      by_cases hlow : status < 400
      · rw [if_pos hlow]
        refine iff_of_false hnull ?_
        intro hfails
        cases hfails with
        | response high readable present => omega
      · rw [if_neg hlow]
        cases body with
        | none =>
            refine iff_of_false hnull ?_
            intro hfails
            cases hfails
        | some octets =>
            refine (Returned.bodyCode_eq_iff h).trans ?_
            constructor
            · intro hbody
              obtain ⟨members, hread, hpresent⟩ := hbody
              exact .response (by omega) hread hpresent
            · intro hfails
              cases hfails with
              | response high readable present => exact ⟨_, readable, present⟩
  | .ok (.value v) =>
      rw [statusOf]
      obtain ⟨hfine, hstatus⟩ | ⟨members, said, rfl, hsaid, hfalsy, hstatus⟩ :=
        Returned.status_value_cases v
      · rw [hstatus]
        refine iff_of_false hnull ?_
        intro hfails
        cases hfails with
        | value denied falsy present =>
            cases hfine with
            | value fine =>
                rw [fine _ _ rfl denied] at falsy
                cases falsy
      · rw [hstatus]
        refine (Members.getOrNull_eq_iff h).trans ?_
        constructor
        · intro hpresent
          exact .value hsaid hfalsy hpresent
        · intro hfails
          cases hfails with
          | value denied falsy present => exact present

/-! ### Values of fields -/

/-- An additional field has a value. -/
inductive Gives (arguments : Members) (returned : Returned) : EventSource → Json → Prop
  | argument {name : Text} {v : Json} (given : arguments.get? name = some v) :
      Gives arguments returned (.argument name) v
  | computed {value : Members → Returned → Option Json} {v : Json}
      (succeeded : value arguments returned = some v) :
      Gives arguments returned (.computed value) v

/-- A source yields a value other than null exactly when the call gives it that value. -/
theorem sourceValue_eq_iff {arguments : Members} {returned : Returned} {source : EventSource}
    {v : Json} (h : v.isNull = false) :
    sourceValue arguments returned source = v ↔ Gives arguments returned source v := by
  cases source with
  | argument name =>
      refine (Members.getOrNull_eq_iff h).trans ?_
      constructor
      · intro hgiven
        exact .argument hgiven
      · intro hgives
        cases hgives with
        | argument given => exact given
  | computed value =>
      rw [sourceValue]
      cases hvalue : value arguments returned with
      | none =>
          refine iff_of_false (Json.null_ne h) ?_
          intro hgives
          cases hgives with
          | computed succeeded =>
              rw [hvalue] at succeeded
              cases succeeded
      | some w =>
          constructor
          · intro hsame
            obtain rfl : w = v := hsame
            exact .computed hvalue
          · intro hgives
            cases hgives with
            | computed succeeded => exact Option.some.inj (hvalue.symm.trans succeeded)

/-- The reported database is the argument that the operation names for it. -/
theorem databaseOf_eq_iff {op : Operation} {arguments : Members} {v : Json}
    (h : v.isNull = false) :
    op.databaseOf arguments = v ↔
      ∃ name, op.databaseArgument = some name ∧ name ≠ [] ∧ arguments.get? name = some v := by
  have hnull : Json.null ≠ v := Json.null_ne h
  rw [databaseOf]
  match hname : op.databaseArgument with
  | none =>
      refine iff_of_false hnull ?_
      intro hgiven
      obtain ⟨name, hsome, -⟩ := hgiven
      cases hsome
  | some [] =>
      refine iff_of_false hnull ?_
      intro hgiven
      obtain ⟨name, hsome, hne, -⟩ := hgiven
      exact hne (Option.some.inj hsome).symm
  | some (c :: name) =>
      refine (Members.getOrNull_eq_iff h).trans ?_
      constructor
      · intro hgiven
        exact ⟨c :: name, rfl, List.cons_ne_nil c name, hgiven⟩
      · intro hgiven
        obtain ⟨other, hsome, -, hfound⟩ := hgiven
        obtain rfl := Option.some.inj hsome
        exact hfound

/-! ### What an event shows -/

/-- The names of the additional fields are proper: none is that of a field that every event has,
and no two are the same. -/
structure WellNamed (op : Operation) : Prop where
  apart : ∀ extra ∈ op.extras, extra.1 ∉ ownFields
  distinct : (op.extras.map (·.1)).Nodup

variable {op : Operation}

/-- The keys of an event are the fields of its own, followed by those the operation adds. -/
theorem keys_eventFields (op : Operation) (arguments : Members) (latency : Json)
    (result : Except Json Returned) :
    Members.keys (op.eventFields arguments latency result) =
      ownFields ++ op.extras.map (·.1) := by
  rw [Members.keys, eventFields, List.map_append, List.map_map]
  rfl

/-- No field of a well-named operation's event is written twice. -/
theorem WellNamed.nodup_keys (h : op.WellNamed) (arguments : Members) (latency : Json)
    (result : Except Json Returned) :
    (Members.keys (op.eventFields arguments latency result)).Nodup := by
  rw [keys_eventFields]
  refine List.nodup_append.mpr ⟨by decide, h.distinct, ?_⟩
  intro own hown name hname hsame
  obtain ⟨extra, hextra, rfl⟩ := List.mem_map.mp hname
  exact h.apart extra hextra (hsame ▸ hown)

/-- A well-named operation's event can always be built, whatever the call's result. -/
theorem WellNamed.fields_eq (h : op.WellNamed) (arguments : Members) (latency : Json)
    (result : Except Json Returned) :
    op.fields arguments latency result = .ok (op.eventFields arguments latency result) := by
  rw [fields, if_neg]
  intro hclash
  obtain ⟨extra, hextra, hown⟩ := List.any_eq_true.mp hclash
  exact h.apart extra hextra (Text.isOneOf_iff.mp hown)

/-- A line of the event stream reports a call. -/
structure Reports (op : Operation) (arguments : Members) (latency : Json)
    (result : Except Json Returned) (time : Text) (line : Members) : Prop where
  operation : line.get? "op" = some (.str op.name)
  database : ∀ v, line.get? "database" = some v ↔ v.isNull = false ∧
    ∃ name, op.databaseArgument = some name ∧ name ≠ [] ∧ arguments.get? name = some v
  latency : ∀ v, line.get? "latency_ms" = some v ↔ v.isNull = false ∧ v = latency
  ok : line.get? "status" = some (.str (Text.ofString "ok")) ↔ Succeeds result
  error : line.get? "status" = some (.str (Text.ofString "error")) ↔ ¬ Succeeds result
  code : ∀ v, line.get? "error_code" = some v ↔ v.isNull = false ∧ FailsWith result v
  /-- An additional field is there if it has a value.  Only the time stands in for one that has
  none. -/
  additional : ∀ extra ∈ op.extras, ∀ v, line.get? extra.1 = some v ↔
    (v.isNull = false ∧ Gives arguments (returned result) extra.2 v) ∨
      (extra.1 = Text.ofString "ts" ∧ v = .str time ∧
        ∀ w, Gives arguments (returned result) extra.2 w → w.isNull = true)
  time : Text.ofString "ts" ∉ op.extras.map (·.1) → line.get? "ts" = some (.str time)
  others : ∀ key, key ∉ ownFields → key ∉ op.extras.map (·.1) → key ≠ Text.ofString "ts" →
    line.get? key = none

section Shown

variable {arguments : Members} {latency v w : Json} {time key : Text}

/-- A field that is not that of the time is shown if it is not null. -/
theorem WellNamed.get?_shown (h : op.WellNamed) (hkey : Text.ofString "ts" ≠ key) :
    (EventStream.payload time (op.eventFields arguments latency result)).get? key =
      (Members.get? (op.eventFields arguments latency result) key).filter fun v => !v.isNull := by
  rw [EventStream.get?_payload (h.nodup_keys arguments latency result), if_neg hkey,
    Option.or_none]

/-- A value passes the filter on null exactly when it is not null. -/
theorem filter_some_eq_some_iff :
    ((some w).filter fun v : Json => !v.isNull) = some v ↔ v.isNull = false ∧ w = v := by
  rw [Option.filter_eq_some_iff, Bool.not_eq_true', and_comm, Option.some_inj]

/-- The status says `ok` or `error` as the call's result does. -/
theorem WellNamed.get?_status (h : op.WellNamed) :
    (EventStream.payload time (op.eventFields arguments latency result)).get? "status" =
      some (.str (if (statusOf result).ok then "ok" else "error")) := by
  rw [h.get?_shown (by decide)]
  rfl

/-- The source of an additional field has no value but null exactly if it gives none. -/
theorem isNull_sourceValue_iff {returned : Returned} {source : EventSource} :
    (sourceValue arguments returned source).isNull = true ↔
      ∀ w, Gives arguments returned source w → w.isNull = true := by
  constructor
  · intro hnull w hgives
    by_contra hw
    have hvalue := (sourceValue_eq_iff (eq_false_of_ne_true hw)).mpr hgives
    exact hw (hvalue ▸ hnull)
  · intro hnone
    by_contra hvalue
    exact hvalue (hnone _ ((sourceValue_eq_iff (eq_false_of_ne_true hvalue)).mp rfl))

/-- A field that the operation adds holds what its source yields. -/
theorem WellNamed.get?_additional (h : op.WellNamed) {extra : Text × EventSource}
    (hextra : extra ∈ op.extras) :
    Members.get? (op.eventFields arguments latency result) extra.1 =
      some (sourceValue arguments (returned result) extra.2) := by
  refine Members.get?_of_mem (h.nodup_keys arguments latency result) ?_
  exact List.mem_append_right _ (List.mem_map_of_mem hextra)

/-- An event has no field besides its own and those the operation adds. -/
theorem get?_eventFields_eq_none (hown : key ∉ ownFields) (hextra : key ∉ op.extras.map (·.1)) :
    Members.get? (op.eventFields arguments latency result) key = none := by
  refine Members.get?_eq_none_of_notMem ?_
  rw [keys_eventFields]
  intro hmem
  rcases List.mem_append.mp hmem with hmem | hmem
  · exact hown hmem
  · exact hextra hmem

/-- **An event shows what there is to report, and nothing else.** -/
theorem WellNamed.reports (h : op.WellNamed) (arguments : Members) (latency : Json)
    (result : Except Json Returned) (time : Text) :
    Reports op arguments latency result time
      (EventStream.payload time (op.eventFields arguments latency result)) where
  operation := by
    rw [h.get?_shown (by decide)]
    rfl
  database := by
    intro v
    rw [h.get?_shown (by decide)]
    refine filter_some_eq_some_iff.trans ?_
    exact and_congr_right databaseOf_eq_iff
  latency := by
    intro v
    rw [h.get?_shown (by decide)]
    refine filter_some_eq_some_iff.trans ?_
    exact and_congr_right fun _ => eq_comm
  ok := by
    rw [h.get?_status, ← statusOf_ok_iff]
    by_cases hok : (statusOf result).ok = true
    · rw [if_pos hok]
      exact iff_of_true rfl hok
    · rw [if_neg hok]
      refine iff_of_false ?_ hok
      intro hsame
      exact absurd (Json.str.inj (Option.some.inj hsame)) (by decide)
  error := by
    rw [h.get?_status, ← statusOf_ok_iff]
    by_cases hok : (statusOf result).ok = true
    · rw [if_pos hok]
      refine iff_of_false ?_ (not_not_intro hok)
      intro hsame
      exact absurd (Json.str.inj (Option.some.inj hsame)) (by decide)
    · rw [if_neg hok]
      exact iff_of_true rfl hok
  code := by
    intro v
    rw [h.get?_shown (by decide)]
    refine filter_some_eq_some_iff.trans ?_
    exact and_congr_right statusOf_code_iff
  additional := by
    intro extra hextra v
    rw [EventStream.get?_payload (h.nodup_keys arguments latency result), Option.or_eq_some_iff,
      h.get?_additional hextra]
    refine or_congr ?_ ?_
    · refine filter_some_eq_some_iff.trans ?_
      exact and_congr_right sourceValue_eq_iff
    · -- The field is null, so that it is left out, and the time shows where it has the same key.
      rw [Option.filter_some, ← isNull_sourceValue_iff]
      by_cases hts : Text.ofString "ts" = extra.1
      · rw [if_pos hts]
        cases (sourceValue arguments (returned result) extra.2).isNull with
        | false =>
            refine iff_of_false (fun hshow => ?_) (fun hshow => ?_)
            · cases hshow.1
            · cases hshow.2.2
        | true =>
            constructor
            · intro hshow
              exact ⟨hts.symm, (Option.some.inj hshow.2).symm, rfl⟩
            · intro hshow
              exact ⟨rfl, congrArg some hshow.2.1.symm⟩
      · rw [if_neg hts]
        refine iff_of_false (fun hshow => ?_) (fun hshow => hts hshow.1.symm)
        cases hshow.2
  time := by
    intro hnone
    rw [EventStream.get?_payload (h.nodup_keys arguments latency result),
      get?_eventFields_eq_none (by decide) hnone]
    rfl
  others := by
    intro key hown hextra hts
    rw [h.get?_shown (Ne.symm hts), get?_eventFields_eq_none hown hextra]
    rfl

end Shown

/-! ### Calls -/

/-- **Calls are transparent and reported faithfully.**  In every monad, a call does what its
handler does, then emits one event, and passes the outcome of the handler on.  The line of the
event reports the call. -/
theorem WellNamed.call_reports {m : Type → Type} [Monad m] {α ε τ : Type} (h : op.WellNamed)
    (i : Inspector α ε) (arguments : Members) (now : m τ) (elapsed : τ → τ → Json)
    (emit : Members → m Unit) (handler : m (Except ε α)) :
    ∃ event : Except ε α → Json → Members,
      (op.call i arguments now elapsed emit handler = do
        let started ← now
        let outcome ← handler
        let finished ← now
        emit (event outcome (elapsed started finished))
        return outcome) ∧
      ∀ outcome latency time,
        Reports op arguments latency (i.seen outcome) time
          (EventStream.payload time (event outcome latency)) := by
  refine ⟨fun outcome latency => op.eventFields arguments latency (i.seen outcome), ?_, ?_⟩
  · simp only [call, h.fields_eq]
  · intro outcome latency time
    exact h.reports arguments latency (i.seen outcome) time

/-! ### Handlers that wait -/

/-- What a handler does that may wait: it waits for a reply, emits an event, or is done. -/
inductive Coroutine (ι α : Type) where
  | done (a : α)
  | emits (event : Members) (rest : Coroutine ι α)
  | waits (rest : ι → Coroutine ι α)

/-- Goes on after a coroutine. -/
def Coroutine.followed {ι α β : Type} : Coroutine ι α → (α → Coroutine ι β) → Coroutine ι β
  | done a, later => later a
  | emits event rest, later => emits event (rest.followed later)
  | waits rest, later => waits fun reply => (rest reply).followed later

instance (ι : Type) : Monad (Coroutine ι) where
  pure := .done
  bind := .followed

/-- A handler waits for a status and responds with it.  The call waits in the same way, and then
emits one event.  If the status is high, this shows the code in the body.  An additional field
that cannot be computed is missing, and the one beside it is there. -/
theorem call_reports_waiting_handler :
    let op : Operation :=
      ⟨"find", some "name", [("hits", .computed fun _ _ => none), ("user", .argument "by")]⟩
    let i : Inspector Returned Unit := ⟨id, fun _ => .null, fun _ => ()⟩
    let arguments : Members := [("name", .str "d"), ("by", .str "me")]
    let body : Octets := Text.encodeUtf8 (Json.write .unicode (.obj [("code", .str "late")]))
    let response (status : Int) : Except Unit Returned := .ok (.response status (some body))
    op.WellNamed ∧ ∃ event : Except Unit Returned → Json → Members,
      op.call i arguments (.done ()) (fun _ _ => .int 1) (fun fields => .emits fields (.done ()))
          (Coroutine.waits fun status => .done (response status)) =
        .waits (fun status => .emits (event (response status) (.int 1)) (.done (response status))) ∧
      ∀ time,
        let line := EventStream.payload time (event (response 503) (.int 1))
        line.get? "status" = some (.str (Text.ofString "error")) ∧
          line.get? "error_code" = some (.str (Text.ofString "late")) ∧
          line.get? "hits" = none ∧ line.get? "user" = some (.str (Text.ofString "me")) := by
  intro op i arguments body response
  have hop : op.WellNamed := ⟨by decide, by decide⟩
  obtain ⟨event, hcall, hreports⟩ := hop.call_reports i arguments
    (m := Coroutine Int) (.done ()) (fun _ _ => .int 1) (fun fields => .emits fields (.done ()))
    (.waits fun status => .done (response status))
  refine ⟨hop, event, hcall, ?_⟩
  intro time line
  have hreport := hreports (response 503) (.int 1) time
  have hfails : ¬ Succeeds (i.seen (response 503)) := by
    intro hsucceeds
    cases hsucceeds with
    | response low => exact absurd low (by decide)
  have hreadable : Json.Readable (.obj [("code", .str "late")]) :=
    ⟨List.nodup_singleton _, trivial, trivial⟩
  have hcode : FailsWith (i.seen (response 503)) (.str (Text.ofString "late")) :=
    .response (by decide) (Json.readOctets_write hreadable) rfl
  have hhits : line.get? "hits" = none := by
    refine Option.eq_none_iff_forall_ne_some.mpr ?_
    intro v hshown
    rcases (hreport.additional _ List.mem_cons_self v).mp hshown with ⟨-, hgives⟩ | ⟨hts, -⟩
    · cases hgives with
      | computed succeeded => cases succeeded
    · exact absurd hts (by decide)
  have huser : line.get? "user" = some (.str (Text.ofString "me")) :=
    (hreport.additional _ (List.mem_cons_of_mem _ List.mem_cons_self) _).mpr
      (Or.inl ⟨rfl, .argument rfl⟩)
  exact ⟨hreport.error.mpr hfails, (hreport.code _).mpr ⟨rfl, hcode⟩, hhits, huser⟩

end Operation

end RecordLog
