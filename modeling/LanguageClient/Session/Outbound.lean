import LanguageClient.Session.Trace

/-! Sending: typed messages and raw ones, over a stream or to a scripted peer. -/

set_option autoImplicit false
namespace LanguageClient

open Json (Value)
open Rpc (RequestId RpcError Outcome)

namespace Connection

def write (c : Connection) (subject : Subject) (text : List Char) :
    Connection × List Event × Except TransportError Unit :=
  match c.writer.frame (Json.octets text) with
  | (w, .error e) => ({ c with writer := w }, [], .error (.stream e))
  | (w, .ok ()) =>
      let (taken, w) := w.collect
      ({ c with writer := w }, [@Event.written subject taken], .ok ())

/-- Enters a request into the table. An entry that has its id is replaced, and its completion never called. -/
def enter (c : Connection) (id : RequestId) (completion : Completion) : Connection :=
  { c with pending := c.pending.filter (fun entry => entry.1 != id) ++ [(id, completion)] }

/-- The entry of a pending request, and the table without it. -/
def take? (c : Connection) (id : RequestId) : Option (Completion × Connection) :=
  (c.pending.lookup id).map fun completion =>
    (completion, { c with pending := c.pending.filter fun entry => entry.1 != id })

end Connection

namespace Session

def sendingLog (level : Log.Level) (message method : String) (more : List (String × Log.Field)) :
    Event :=
  logged level .outbound message (("method", .text method) :: more)

def settle (method : ClientRequest) (result : Schema) (outcome : Except TransportError Outcome) :
    List Event × Completed :=
  match outcome with
  | .error e =>
      ([sendingLog .warn "request failed in transport" method.name [("error", .shown e.message)]],
        .failed (.requestNotSent e))
  | .ok (.error e) =>
      ([sendingLog .debug "server answered with an error" method.name
          [("code", .integer e.code), ("message", .shown e.message)]],
        .failed (.rpc e))
  | .ok (.ok v) =>
      match result.decode v with
      | .ok d => ([], .result (result.encode d))
      | .error cause =>
          let e : Json.Error := ⟨cause, none⟩
          ([sendingLog .warn "failed to decode result" method.name [("error", .shown e.message)]],
            .failed (.requestNotSent (.codec e)))

def rawOutcome : Except TransportError Outcome → Completed
  | .error e => .broken e
  | .ok (.error e) => .refused e
  | .ok (.ok v) => .result v

/-- Calls a completion: its send is over, and its operations come next. -/
def finish (s : Session) (c : Completion) (outcome : Except TransportError Outcome) : Turn :=
  let (events, completed) := match c.purpose with
    | .typed method result => settle method result outcome
    | .raw => ([], rawOutcome outcome)
  { session := s, events := events ++ [.completed c.number completed],
    tasks := c.after.map .perform }

def transmitRequest (s : Session) (method : String) (params : Option Value) (completion : Completion) :
    Turn :=
  match s.transport with
  | .scripted peer =>
      let sent : Event := .sent true method params
      match peer.replies with
      | [] => { session := s, events := [sent], tasks := [.finish completion (.error .closed)] }
      | reply :: rest =>
          let s := { s with transport := .scripted { peer with replies := rest } }
          match reply with
          | .hold => { session := s.hold (.completion completion), events := [sent] }
          | .deliver outcome => { session := s, events := [sent], tasks := [.finish completion outcome] }
  | .connection c =>
      let id : RequestId := .number c.nextId.toInt
      let c := { c with nextId := c.nextId + 1 }
      if c.closed then
        { session := { s with transport := .connection c }
          events := [logged .debug .transport "request after stream end"
            [("method", .text method), ("id", .shown id.display)]]
          tasks := [.finish completion (.error .closed)] }
      else
        -- The entry is made before the octets leave, so that no response comes before it.
        let c := c.enter id completion
        match c.write (.request completion.number id) (Rpc.writeRequest id method params) with
        | (c, events, .ok ()) => { session := { s with transport := .connection c }, events }
        | (c, events, .error e) =>
            match c.take? id with
            | none => { session := { s with transport := .connection c }, events }
            | some (completion, c) =>
                { session := { s with transport := .connection c }, events,
                  tasks := [.finish completion (.error e)] }

def transmitNotification (s : Session) (method : String) (params : Option Value) :
    Session × List Event × Except TransportError Unit :=
  match s.transport with
  | .scripted peer =>
      let outcome := match peer.notificationFault with
        | none => .ok ()
        | some e => .error e
      (s, [.sent false method params], outcome)
  | .connection c =>
      if c.closed then
        (s, [logged .debug .transport "notification after stream end" [("method", .text method)]],
          .error .closed)
      else
        let (c, events, outcome) :=
          c.write (.notification s.sends) (Rpc.writeNotification method params)
        ({ s with transport := .connection c }, events, outcome)

def counted (s : Session) : Session := { s with sends := s.sends + 1 }

def sendRequest (s : Session) (method : ClientRequest) (params : Value) (result : Schema)
    (after : List Op) : Turn :=
  match ClientRequest.Message.build method params with
  | .error cause => { session := s, events := [.rejected cause] }
  | .ok m =>
      let s := s.counted
      let events := s.traceOutbound method.name m.params?
        ++ [sendingLog .debug "sending request" method.name []]
      ({ session := s, events } : Turn).andThen fun s =>
        s.transmitRequest method.name m.params? ⟨s.sends, .typed method result, after⟩

def sendNotification (s : Session) (method : ClientNotification) (params : Value)
    (after : List Op) : Turn :=
  match ClientNotification.Message.build method params with
  | .error cause => { session := s, events := [.rejected cause] }
  | .ok m =>
      let s := s.counted
      let number := s.sends
      let events := s.traceOutbound method.name m.params?
        ++ [sendingLog .debug "sending notification" method.name []]
      let (s, written, outcome) := s.transmitNotification method.name m.params?
      let (more, completed) := match outcome with
        | .ok () => ([], Completed.delivered)
        | .error e =>
            ([sendingLog .warn "notification not sent" method.name [("error", .shown e.message)]],
              .failed (.notificationNotSent e))
      { session := s, events := events ++ written ++ more ++ [.completed number completed],
        tasks := after.map .perform }

def sendRawRequest (s : Session) (method : String) (params : Option Value) (after : List Op) : Turn :=
  let s := s.counted
  s.transmitRequest method params ⟨s.sends, .raw, after⟩

def sendRawNotification (s : Session) (method : String) (params : Option Value) (after : List Op) :
    Turn :=
  let s := s.counted
  let number := s.sends
  let (s, events, outcome) := s.transmitNotification method params
  let completed := match outcome with
    | .ok () => Completed.delivered
    | .error e => .broken e
  { session := s, events := events ++ [.completed number completed], tasks := after.map .perform }

end Session
end LanguageClient
