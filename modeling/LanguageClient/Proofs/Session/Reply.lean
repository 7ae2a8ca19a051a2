import LanguageClient.Proofs.Rpc.Message
import LanguageClient.Proofs.Session.Idle

/-! What a handler answers is what the requester receives. -/

set_option autoImplicit false
namespace LanguageClient

open Json (Value)
open Rpc (RequestId RpcError Response Outcome)

def Event.response? : Event → Option Response
  | .response r => some r
  | _ => none

/-- What a handler can answer: values that stay exact, in a response for the nesting of which a
reader has room. Only the errors of a peer carry values; any other error is one of words. -/
def Answerable : Except ExchangeError Value → Prop
  | .ok v => v.Exact ∧ v.depth + 1 < Json.nestingLimit
  | .error (.rpc e) => e.Exact ∧ e.depth + 1 < Json.nestingLimit
  | .error _ => True

/-- What a response says of an answer. -/
def told (answer : Except ExchangeError Value) : Outcome := answer.mapError ExchangeError.toRpc

/-- What is left of an outcome when it arrives. -/
def heard (outcome : Outcome) : Outcome := outcome.mapError RpcError.arrived

def Completed.plain : Outcome → Completed
  | .ok v => .result v
  | .error e => .failed (.rpc e)

theorem worded {code : Int} (message : String)
    (contained : Json.IntegerRange.contains .signed64 code = true) :
    (RpcError.new code message).Exact ∧ (RpcError.new code message).depth + 1 < Json.nestingLimit := by
  have flat : (RpcError.new code message).depth = 1 := rfl
  rw [flat]
  exact ⟨⟨contained, nofun⟩, by decide⟩

theorem stated_toRpc {e : ExchangeError} (answerable : Answerable (.error e)) :
    e.toRpc.Exact ∧ e.toRpc.depth + 1 < Json.nestingLimit := by
  cases e with
  | rpc e => exact answerable
  | _ => exact worded _ rfl

theorem stated_told {answer : Except ExchangeError Value} (answerable : Answerable answer) :
    Rpc.Stated (told answer) ∧ Rpc.nesting (told answer) + 1 < Json.nestingLimit := by
  cases answer with
  | ok v => exact answerable
  | error e => exact stated_toRpc answerable

def Connection.without (c : Connection) (id : RequestId) : Connection :=
  { c with pending := c.pending.filter fun entry => entry.1 != id }

namespace Session

theorem unanswered_writeResponse (s : Session) (number : Nat) (r : Response) :
    (s.writeResponse number r).events.filterMap Event.response? = [] := by
  cases carrier : s.transport with
  | scripted peer => simp only [writeResponse, carrier, List.filterMap_nil]
  | connection c =>
    simp only [writeResponse, carrier, List.filterMap_append, filterMap_write Event.response? fun _ _ => rfl,
      List.nil_append]
    split <;> rfl

theorem responses_respond (s : Session) (number attachment : Nat) (route : Route) (r : Response) :
    (s.respond number attachment route r).events.filterMap Event.response? = [r] := by
  have built : (s.traceResponse attachment r ++ [@Event.response number r]).filterMap Event.response? =
      [r] := by
    rw [List.filterMap_append, traceResponse, filterMap_wire Event.response? fun _ => rfl]
    rfl
  cases route with
  | direct => exact built
  | wire =>
    simp only [respond, Turn.andThen]
    rw [List.filterMap_append, built, unanswered_writeResponse]
    rfl

theorem responses_answerWith (s : Session) (r : Responder) (answer : Except ExchangeError Value) :
    (s.answerWith r answer).events.filterMap Event.response? = [⟨r.id, told answer⟩] := by
  cases answer with
  | ok v => exact s.responses_respond _ _ _ _
  | error e => exact s.responses_respond _ _ _ _

theorem route_response {t : Session} {c : Connection} {completion : Completion} {body : List UInt8}
    {id : RequestId} {outcome : Outcome}
    (classified : Rpc.Message.ofBytes body = .ok (.response (some id) outcome))
    (carrier : t.transport = .connection c) (pending : c.pending.lookup id = some completion) :
    t.route body =
      { session := { t with transport := .connection (c.without id) }
        tasks := [.finish completion (.ok outcome)] } := by
  simp only [route, classified, correlate, carrier, Connection.take?, pending, Option.map_some,
    Connection.without]

theorem finish_plain (u : Session) {completion : Completion} {method : ClientRequest}
    (typed : completion.purpose = .typed method .value) (outcome : Outcome) :
    (u.finish completion (.ok outcome)).events.filterMap Event.completion? =
      [(completion.number, .plain outcome)] := by
  cases outcome <;> simp only [finish, typed] <;> rfl

/-- A response tells what the handler answered. It completes the request that waits for it with
this outcome, and a typed request that takes any value ends with it. -/
theorem relayed_of_answer (s : Session) (r : Responder) {answer : Except ExchangeError Value}
    (identified : r.id.Exact) (answerable : Answerable answer) :
    ∃ response : Response, (s.answerWith r answer).events.filterMap Event.response? = [response] ∧
      response = ⟨r.id, told answer⟩ ∧
      Rpc.Message.ofBytes (Json.octets response.write) =
        .ok (.response (some r.id) (heard (told answer))) ∧
      ∀ (t : Session) (c : Connection) (completion : Completion), t.transport = .connection c →
        c.pending.lookup r.id = some completion →
          t.route (Json.octets response.write) =
            { session := { t with transport := .connection (c.without r.id) }
              tasks := [.finish completion (.ok (heard (told answer)))] } ∧
          ∀ (u : Session) (method : ClientRequest), completion.purpose = .typed method .value →
            (u.finish completion (.ok (heard (told answer)))).events.filterMap Event.completion? =
              [(completion.number, .plain (heard (told answer)))] := by
  obtain ⟨stated, fits⟩ := stated_told answerable
  have read : Rpc.Message.ofBytes (Json.octets (Response.write ⟨r.id, told answer⟩)) =
      .ok (.response (some r.id) (heard (told answer))) :=
    Rpc.Message.ofBytes_response identified stated fits
  refine ⟨_, s.responses_answerWith r answer, rfl, read, ?_⟩
  intro t c completion carrier pending
  exact ⟨route_response read carrier pending, fun u _ typed => u.finish_plain typed _⟩

/-- A refusal with data of null, heard by a request that waits for any value. -/
theorem relayed_refusal :
    let e : RpcError := ⟨-1, "no", some .null⟩
    let r : Responder := ⟨0, .number 1, .configuration, .direct, 0⟩
    let completion : Completion := ⟨1, .typed .shutdown .value, []⟩
    let t : Session := { overStream {} with transport := .connection { pending := [(.number 1, completion)] } }
    ∃ response : Response,
      ((overStream {}).answerWith r (.error (.rpc e))).events.filterMap Event.response? = [response] ∧
        (t.route (Json.octets response.write)).tasks = [.finish completion (.ok (.error ⟨-1, "no", none⟩))] ∧
          (t.finish completion (.ok (.error ⟨-1, "no", none⟩))).events.filterMap Event.completion? =
            [(1, .failed (.rpc ⟨-1, "no", none⟩))] := by
  intro e r completion t
  have exact : e.Exact := ⟨rfl, fun v same => by cases same; trivial⟩
  have answerable : Answerable (.error (.rpc e)) := ⟨exact, by decide⟩
  obtain ⟨response, answered, -, -, routed⟩ := relayed_of_answer (overStream {}) r rfl answerable
  obtain ⟨turn, ends⟩ := routed t _ completion rfl rfl
  exact ⟨response, answered, congrArg Turn.tasks turn, ends t .shutdown rfl⟩

end Session
end LanguageClient
