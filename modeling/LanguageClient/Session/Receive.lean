import LanguageClient.Session.Inbound

/-! The read loop: frames off the stream, one after the other, until it ends. -/

set_option autoImplicit false
namespace LanguageClient.Session

open Rpc (RequestId RpcError Response Outcome)

/-- A frame that cannot be used; without an attached session only the log tells. -/
def reportFrame (s : Session) (e : TransportError) : Turn :=
  if s.attached then s.reportError e
  else { session := s, events := [logged .warn .transport "malformed frame" [("error", .shown e.message)]] }

def correlate (s : Session) (id : RequestId) (outcome : Outcome) : Turn :=
  let found := match s.transport with
    | .connection c => (c.take? id).map fun (completion, c) => (completion, Transport.connection c)
    | .scripted _ => none
  match found with
  | some (completion, transport) =>
      { session := { s with transport }, tasks := [.finish completion (.ok outcome)] }
  | none =>
      { session := s
        events := [logged .warn .transport "response for unknown request" [("id", .shown id.display)]] }

def inspectError : Outcome → String
  | .ok _ => "None"
  | .error e => "Some(" ++ e.inspect ++ ")"

def refuseEarly (s : Session) (id : RequestId) (method : String) : Turn :=
  ({ session := s.admitted
     events := [logged .debug .transport "request arrived before attach"
      [("method", .text method), ("id", .shown id.display)]] } : Turn).andThen
    (·.writeResponse s.received (.failure id
      (.new RpcError.methodNotFound ("no handler attached for '" ++ method ++ "'"))))

def route (s : Session) (body : List UInt8) : Turn :=
  match Rpc.Message.ofBytes body with
  | .error e => s.reportFrame (.codec e)
  | .ok (.response (some id) outcome) => s.correlate id outcome
  | .ok (.response none outcome) =>
      { session := s
        events := [logged .warn .transport "discarding response without an id"
          [("error", .shown (inspectError outcome))]] }
  | .ok (.request id method) =>
      if s.attached then s.handleRequest .wire id method body else s.refuseEarly id method
  | .ok (.notification method) =>
      if s.attached then s.handleNotification .wire method body
      else
        { session := s
          events := [logged .debug .transport "dropping notification before attach"
            [("method", .text method)]] }

/-- Closes the transport; every request that still waits comes to nothing. They do so in the order of the
table, which is one of several: a hash map yields its entries in any order. -/
def close (s : Session) : Turn :=
  match s.transport with
  | .scripted _ => { session := s }
  | .connection c =>
      { session := { s with transport := .connection { c with closed := true, pending := [] } }
        tasks := c.pending.map fun entry => .finish entry.2 (.error .closed) }

def noteEvent : Frame.Note → Event
  | .resynchronised skipped =>
      logged .debug .transport "resynchronised on header" [("skipped", .integer skipped)]
  | .drained declared skipped =>
      logged .debug .transport "dropped oversized frame"
        [("declared", .integer declared), ("skipped", .integer skipped)]

def stop (s : Session) (outcome : Except StreamError Unit) : Turn :=
  let record := match outcome with
    | .ok () => logged .debug .transport "stream closed" []
    | .error e => logged .warn .transport "stream failed" [("error", .shown e.message)]
  (({ session := s, events := [record] } : Turn).andThen close).andThen fun s =>
    { session := s, tasks := [.stopped outcome] }

/-- Takes what comes next on a stream whose octets at hand are used up. -/
def supply (s : Session) (phase : Frame.Phase) : List (Supply Op) → Turn
  | [] => { session := s, tasks := [.receive phase [] []] }
  | .bytes bytes :: input => { session := s, tasks := [.receive phase bytes input] }
  | .act op :: input => { session := s, tasks := [.perform op, .receive phase [] input] }
  | .failure fault :: input =>
      if fault = .interrupted then { session := s, tasks := [.receive phase [] input] }
      else s.stop (.error ⟨fault, none⟩)

def receive (s : Session) (phase : Frame.Phase) (bytes : List UInt8) (input : List (Supply Op)) :
    Turn :=
  let step := Frame.next phase bytes input.isEmpty
  let turn : Turn := { session := s, events := step.notes.map noteEvent }
  let goOn (s : Session) : Turn := { session := s, tasks := [.receive .start step.rest input] }
  match step.arrival with
  | .frame body => (turn.andThen (·.route body)).andThen goOn
  | .rejected e => (turn.andThen (·.reportFrame e)).andThen goOn
  | .failed e => turn.andThen (·.stop (.error e))
  | .ended => turn.andThen (·.stop (.ok ()))
  | .starved phase => turn.andThen (·.supply phase input)

end LanguageClient.Session
