import RecordLog.Events.Stream
import RecordLog.Json.Octets

/-!
# Events of operations

An operation of the service is a handler that is called with named arguments.  The
event of a call says which operation it was, which database it was about, how long
it took, how it ended, and what else the operation reports.

A call fails if the handler fails, or if what it returns says so: a response with
a status of 400 or more, or an object whose member `ok` counts as no.  The code of
a failure is the code of the error, of the body of the response, or of the object.

`Operation.call` puts the event around a handler.  The handler may act in any way,
also wait for others; the event comes after it in the same way.

Arguments and codes are JSON values here, as an event can show them.  To emit an event is an
action like the others: if it fails, what becomes of the call is a matter of the monad.
-/

namespace RecordLog

/-- What a handler returns. -/
inductive Returned where
  | value (v : Json)
  | response (status : Int) (body : Option Octets)

/-- Where an additional field of an event comes from. -/
inductive EventSource where
  /-- From the argument with a name. -/
  | argument (name : Text)
  /-- Computed from the arguments and from what is returned, which may fail. -/
  | computed (value : Members → Returned → Option Json)

/-- An operation that reports its calls. -/
structure Operation where
  name : Text
  /-- The argument that names the database, if there is one. -/
  databaseArgument : Option Text
  /-- Additional fields. -/
  extras : List (Text × EventSource)

/-- How a call ended: whether it was a success, and the code of the failure. -/
structure CallStatus where
  ok : Bool
  code : Json

namespace Returned

/-- The code in the body of a response. -/
def bodyCode (body : Option Octets) : Json :=
  match body with
  | none => .null
  | some octets =>
    match Json.readOctets octets with
    | .ok (.obj members) => Members.getOrNull members "code"
    | _ => .null

/-- The status that is returned. -/
def status : Returned → CallStatus
  | response status body => if status < 400 then ⟨true, .null⟩ else ⟨false, bodyCode body⟩
  | value (.obj members) =>
    match Members.get? members "ok" with
    | none => ⟨true, .null⟩
    | some v =>
      if v.truthy then ⟨true, .null⟩ else ⟨false, Members.getOrNull members "code"⟩
  | value _ => ⟨true, .null⟩

/-- A member of the returned value; null if there is none. -/
def member : Returned → Text → Json
  | value (.obj members), key => Members.getOrNull members key
  | _, _ => .null

end Returned

/-- From a member of the value that is returned. -/
def EventSource.member (key : Text) : EventSource :=
  .computed fun _ returned => some (returned.member key)

namespace Operation

/-- The fields that every event has; additional ones must be named otherwise. -/
def ownFields : List Text := ["op", "database", "latency_ms", "status", "error_code"]

/-- The value of an additional field; null if it cannot be computed. -/
def sourceValue (arguments : Members) (returned : Returned) : EventSource → Json
  | .argument name => Members.getOrNull arguments name
  | .computed value => (value arguments returned).getD .null

/-- The database that a call was about. -/
def databaseOf (op : Operation) (arguments : Members) : Json :=
  match op.databaseArgument with
  | some (c :: name) => Members.getOrNull arguments (c :: name)
  | _ => .null

/-- How a call ended, given what it returned or the code of its error. -/
def statusOf : Except Json Returned → CallStatus
  | .ok returned => returned.status
  | .error code => ⟨false, code⟩

/-- What a call returned; null if it failed. -/
def returned : Except Json Returned → Returned
  | .ok returned => returned
  | .error _ => .value .null

/-- The fields of the event of a call. -/
def eventFields (op : Operation) (arguments : Members) (latency : Json)
    (result : Except Json Returned) : Members :=
  let status := statusOf result
  let word : Text := if status.ok then "ok" else "error"
  ([("op", .str op.name), ("database", op.databaseOf arguments), ("latency_ms", latency),
    ("status", .str word), ("error_code", status.code)] : Members)
  ++ op.extras.map fun (name, source) => (name, sourceValue arguments (returned result) source)

/-- The fields of the event of a call, unless two of them have one name. -/
def fields (op : Operation) (arguments : Members) (latency : Json)
    (result : Except Json Returned) : Outcome Members :=
  if op.extras.any fun (name, _) => name.isOneOf ownFields then .error .unsuitable
  else .ok (op.eventFields arguments latency result)

end Operation

/-! ### Calls -/

/-- How an operation looks at the values `α` that its handler returns and the errors `ε` that
it raises. -/
structure Inspector (α ε : Type) where
  /-- What a value is for an event. -/
  returned : α → Returned
  /-- The code of an error; null if it has none. -/
  code : ε → Json
  /-- The error for an additional field that is named like one that every event has. -/
  clash : Failure → ε

namespace Inspector

variable {α ε : Type}

/-- What an event shows of an outcome. -/
def seen (i : Inspector α ε) : Except ε α → Except Json Returned
  | .ok a => .ok (i.returned a)
  | .error e => .error (i.code e)

end Inspector

/-- Calls a handler and emits the event of the call.  The outcome is that of the handler, unless
two fields of the event have one name. -/
def Operation.call {m : Type → Type} [Monad m] {α ε τ : Type} (op : Operation)
    (i : Inspector α ε) (arguments : Members) (now : m τ) (elapsed : τ → τ → Json)
    (emit : Members → m Unit) (handler : m (Except ε α)) : m (Except ε α) := do
  let started ← now
  let outcome ← handler
  let finished ← now
  match op.fields arguments (elapsed started finished) (i.seen outcome) with
  | .error failure => return .error (i.clash failure)
  | .ok fields =>
    emit fields
    return outcome

end RecordLog
