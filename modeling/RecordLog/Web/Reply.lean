import RecordLog.Error
import RecordLog.Web.Framework

/-!
# Replies

A reply has a status and a body of JSON or text.  Bodies of JSON are made by the web
framework.  Where it can make none, the reply is that the server failed.
-/

namespace RecordLog

/-- What a reply says. -/
inductive ReplyBody where
  | json (v : Json)
  | text (t : Text) (mediaType : Text)

/-- A reply. -/
structure Reply where
  status : Nat
  body : ReplyBody

namespace Reply

/-- The media type of JSON. -/
def jsonType : Text := "application/json"

/-- The media type of plain text. -/
def textType : Text := "text/plain; charset=utf-8"

/-- The media type of a reply. -/
def mediaType (r : Reply) : Text :=
  match r.body with
  | .json _ => jsonType
  | .text _ mediaType => mediaType

/-- The server failed. -/
def failed : Reply := ⟨500, .text "Internal Server Error" textType⟩

/-- A reply that says what is wrong in general. -/
def detail (status : Nat) (wording : Text) : Reply :=
  ⟨status, .json (.obj [("detail", .str wording)])⟩

/-- Nothing is at the path. -/
def notFound : Reply := detail 404 "Not Found"

/-- The path does not have the method. -/
def methodNotAllowed : Reply := detail 405 "Method Not Allowed"

/-- The body of the request cannot be taken in at all. -/
def unreadableBody : Reply := detail 400 "There was an error parsing the body"

/-- The report of an error by code and wording, with details if there are any. -/
def errorReport (code wording : Text) (details : Members) : Members :=
  let core : Members :=
    [("ok", .bool false), ("code", .str code), ("error", .str wording)]
  match details with
  | [] => core
  | details => Members.set core "details" (.obj details)

end Reply

namespace Framework

variable (framework : Framework)

/-- A reply of an object. -/
def reply (status : Nat) (model : ResponseModel) (members : Members) : Reply :=
  match framework.respond model (.obj members) with
  | some sent => ⟨status, .json sent⟩
  | none => .failed

/-- A reply with the envelope of an error. -/
def errorReply (status : Nat) (code wording : Text) (details : Members) : Reply :=
  framework.reply status .envelope (Reply.errorReport code wording details)

/-- The request is refused because of parts of it. -/
def invalidRequest (errors : List Json) : Reply :=
  framework.errorReply 422 "invalid_request" "request validation failed"
    [("errors", .arr errors)]

/-- The reply to a refusal. -/
def refuse : Refusal → Reply
  | .invalid errors => framework.invalidRequest errors
  | .unreadable => .unreadableBody

/-- The report of an error of the query or the log. -/
def ofError (e : QueryError) : Reply :=
  framework.errorReply e.kind.status e.kind.code e.message e.details

end Framework

end RecordLog
