import RecordLog.Json
import RecordLog.Text.Utf8

/-!
# The web framework

The server stands on a framework that takes requests in and sends replies out.  The framework
is not part of the library, which speaks of every framework.  What is asked of one is to

* make a request to find records out of the octets of a body, which it reads as JSON and fits
  to a schema, or to refuse it, and
* make the JSON value that is sent out of a value that the server replies with, fitted to the
  model of the response.  It may have none: then the server has failed.

A schema can change what it accepts: `options` of a `FindRequest` are those of the body after
the schema has read them.
-/

namespace RecordLog

/-- A request to find records, as the handler is given it. -/
structure FindRequest where
  query : Members
  /-- The options; null if there are none. -/
  options : Json

/-- Why a body is refused. -/
inductive Refusal where
  /-- It does not fit the schema.  The errors say where. -/
  | invalid (errors : List Json)
  /-- It cannot be taken in at all. -/
  | unreadable

/-- What a value that is replied with is fitted to. -/
inductive ResponseModel where
  /-- Records that were found. -/
  | found
  /-- The names of databases. -/
  | databases
  /-- The envelope of an error. -/
  | envelope
  /-- Nothing: the value is written as it is. -/
  | plain
deriving DecidableEq

/-- What the server asks of a web framework. -/
structure Framework where
  /-- The request that the octets of a body make. -/
  receive : Octets → Except Refusal FindRequest
  /-- The errors of a request whose address lacks a parameter. -/
  lacking : (parameter : Text) → List Json
  /-- The value that is sent for one that is replied with, if it can be sent. -/
  respond : ResponseModel → Json → Option Json

end RecordLog
