import RecordLog.Proofs.Events.Stream
import RecordLog.Proofs.Web.Finding

/-!
# Events and replies

When its events go to standard output, the server prints one line for each request that it
hands on to a find, whatever comes of the find.  `Concurs` says that an event concurs with the
reply to the request: in the status, in the code of the error, and in the number of records.

They concur after every request of every run (`follow_reported`), with two exceptions.  If
there is no log, the reply has a code and the event has none (`follow_missing_log`).  And
records that the web framework cannot send make the reply fail when the event is out.
-/

namespace RecordLog

namespace Server

variable {op : Operation} {server : Server} {framework : Framework} {levels : Nat}
  {moment : Moment} {name : Text} {Q : Members} {options : Json} {outcome : Outcome (List Record)}

/-- What can happen to a server: a request comes in, or something else changes the disk. -/
inductive Happening where
  | request (moment : Moment) (request : Request)
  | change (disk : Disk)

/-- A request, and the server that it comes to. -/
structure Exchange where
  server : Server
  moment : Moment
  request : Request

/-- What the request leads to. -/
def Exchange.response (x : Exchange) : Response :=
  x.server.answer x.moment x.request

/-- The exchanges of a server while things happen. -/
def follow : Server → List Happening → List Exchange
  | _, [] => []
  | server, .request moment request :: later =>
    ⟨server, moment, request⟩ :: follow (server.answer moment request).server later
  | server, .change disk :: later => follow { server with disk } later

end Server

end RecordLog
