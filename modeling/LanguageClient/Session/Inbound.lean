import LanguageClient.Session.Outbound

/-! Inbound messages: to whom they go, and how they are answered.

The method decides first, then whether there is a handler, then whether the params fit.
-/

set_option autoImplicit false
namespace LanguageClient.Session

open Json (Value)
open Rpc (RequestId RpcError Response)

/-- Sends a response to the peer; a failure to do so is only logged. -/
def writeResponse (s : Session) (number : Nat) (r : Response) : Turn :=
  match s.transport with
  | .scripted _ => { session := s }
  | .connection c =>
      let (c, events, outcome) := c.write (.response number r.id) r.write
      let failure := match outcome with
        | .ok () => []
        | .error e =>
            [logged .warn .transport "failed to write response"
              [("id", .shown r.id.display), ("error", .shown e.message)]]
      { session := { s with transport := .connection c }, events := events ++ failure }

def respond (s : Session) (number attachment : Nat) (route : Route) (r : Response) : Turn :=
  let turn : Turn :=
    { session := s, events := s.traceResponse attachment r ++ [@Event.response number r] }
  match route with
  | .direct => turn
  | .wire => turn.andThen (·.writeResponse number r)

def reject (s : Session) (number attachment : Nat) (route : Route) (id : RequestId)
    (e : ExchangeError) : Turn :=
  s.respond number attachment route (.failure id e.toRpc)

def acknowledge (s : Session) (number : Nat) (route : Route) (method : String)
    (outcome : Except ExchangeError Unit) : Turn :=
  let failure := match route, outcome with
    | .wire, .error e =>
        [logged .debug .transport "notification not handled"
          [("method", .shown method), ("error", .shown e.message)]]
    | _, _ => []
  { session := s, events := @Event.acknowledged number outcome :: failure }

/-- Takes a message in; its number is the count before it. -/
def admitted (s : Session) : Session := { s with received := s.received + 1 }

def dispatchLog (level : Log.Level) (message method : String) (more : List (String × Log.Field)) :
    Event :=
  logged level .dispatch message (("method", .text method) :: more)

def callRequest (s : Session) (handler : RequestHandler) (m : ServerRequest.Message)
    (r : Responder) : Turn :=
  let params := m.params?
  { session := s
    events := [.handled
      { label := m.method.label, method := m.method.name, params, id := some r.id,
        handler := handler.name,
        shown := if handler.verbose then some (r.inspect, r.method.name) else none }]
    tasks := handler.before.map .perform ++ [.answer r (params.getD .null) handler.reply] }

def callNotification (s : Session) (handler : NotificationHandler) (m : ServerNotification.Message)
    (a : Acknowledger) : Turn :=
  { session := s
    events := [.handled
      { label := m.method.label, method := m.method.name, params := some m.params, id := none,
        handler := handler.name,
        shown := if handler.verbose then some (a.inspect, a.method.name) else none }]
    tasks := handler.before.map .perform ++ [.acknowledge a handler.reply] }

def handleRequest (s : Session) (route : Route) (id : RequestId) (method : String)
    (payload : List UInt8) : Turn :=
  let shownId : String × Log.Field := ("id", .shown id.display)
  let turn : Turn := { session := s.admitted, events := s.traceInbound method payload }
  match ServerRequest.ofName? method with
  | none =>
      (turn.emit [dispatchLog .debug "rejecting unhandled request" method [shownId]]).andThen
        (·.reject s.received s.attachment route id (.unhandledMethod method))
  | some kind =>
      -- The handler comes before the params: without one they are not read.
      match s.requestHandler with
      | none =>
          (turn.emit [dispatchLog .debug "no request handler registered" method [shownId]]).andThen
            (·.reject s.received s.attachment route id (.handlerUnavailable method))
      | some handler =>
          match ServerRequest.Message.decode kind payload with
          | .error e =>
              (turn.emit [dispatchLog .warn "failed to decode request" method
                [shownId, ("error", .shown e.message)]]).andThen
                (·.reject s.received s.attachment route id (.ofDecode e))
          | .ok m =>
              (turn.emit [dispatchLog .debug "dispatching request" method [shownId]]).andThen
                (·.callRequest handler m ⟨s.received, id, kind, route, s.attachment⟩)

def handleNotification (s : Session) (route : Route) (method : String) (payload : List UInt8) :
    Turn :=
  let turn : Turn := { session := s.admitted, events := s.traceInbound method payload }
  match ServerNotification.ofName? method with
  | none =>
      (turn.emit [dispatchLog .debug "rejecting unhandled notification" method []]).andThen
        (·.acknowledge s.received route method (.error (.unhandledMethod method)))
  | some kind =>
      match s.notificationHandler with
      | none =>
          (turn.emit [dispatchLog .debug "no notification handler registered" method []]).andThen
            (·.acknowledge s.received route method (.error (.handlerUnavailable method)))
      | some handler =>
          match ServerNotification.Message.decode kind payload (s.config.policyFor method) with
          | .error e =>
              (turn.emit [dispatchLog .warn "failed to decode notification" method
                [("error", .shown e.message)]]).andThen
                (·.acknowledge s.received route method (.error (.ofDecode e)))
          | .ok m =>
              (turn.emit [dispatchLog .debug "dispatching notification" method []]).andThen
                (·.callNotification handler m ⟨s.received, kind, route⟩)

def answerWith (s : Session) (r : Responder) (outcome : Except ExchangeError Value) : Turn :=
  match outcome with
  | .ok v => s.respond r.number r.attachment r.route (.success r.id v)
  | .error e =>
      ({ session := s
         events := [logged .warn .dispatch "request completed with an error"
          [("method", .shown r.method.name), ("id", .shown r.id.display),
            ("error", .shown e.message)]] } : Turn).andThen
        (·.reject r.number r.attachment r.route r.id e)

def dropResponder (s : Session) (r : Responder) : Turn :=
  ({ session := s
     events := [logged .warn .dispatch "responder dropped without a response"
      [("method", .shown r.method.name), ("id", .shown r.id.display)]] } : Turn).andThen
    (·.reject r.number r.attachment r.route r.id (.responseDropped r.method.name))

def dropAcknowledger (s : Session) (a : Acknowledger) : Turn :=
  ({ session := s
     events := [logged .warn .dispatch "acknowledger dropped without an outcome"
      [("method", .shown a.method.name)]] } : Turn).andThen
    (·.acknowledge a.number a.route a.method.name (.error (.responseDropped a.method.name)))

def answer (s : Session) (r : Responder) (echoed : Value) : RequestReply → Turn
  | .drop => s.dropResponder r
  | .hold => { session := s.hold (.responder r) }
  | .echo => s.answerWith r (.ok echoed)
  | .respond outcome => s.answerWith r outcome

def settleNotification (s : Session) (a : Acknowledger) : NotificationReply → Turn
  | .drop => s.dropAcknowledger a
  | .hold => { session := s.hold (.acknowledger a) }
  | .acknowledge outcome => s.acknowledge a.number a.route a.method.name outcome

def reportError (s : Session) (e : TransportError) : Turn :=
  { session := s
    events := [.transportError e,
      logged .warn .dispatch "transport reported an error" [("error", .shown e.message)]] }

end LanguageClient.Session
