import LanguageClient.Frame.Reader
import LanguageClient.Frame.Writer
import LanguageClient.Log
import LanguageClient.Message
import LanguageClient.Rpc.Message

/-! The state of a client's session with a peer, and what happens in it.

A session has one slot for a handler of requests and one for a handler of
notifications. Whoever has to answer a message holds a responder or an acknowledger
for it; whoever sent a message waits with a completion.
-/

set_option autoImplicit false
namespace LanguageClient

open Json (Value)
open Rpc (RequestId RpcError Response Outcome)

inductive RequestReply where
  | drop
  | hold
  /-- Answers with the params of the request. -/
  | echo
  | respond (outcome : Except ExchangeError Value)

inductive NotificationReply where
  | drop
  | hold
  | acknowledge (outcome : Except ExchangeError Unit)

inductive PeerReply where
  | hold
  | deliver (outcome : Except TransportError Outcome)

/-- A handler runs its operations on the session before it replies. -/
structure Handler (ω ρ : Type) where
  name : Option String
  /-- Whether it shows the responder or acknowledger it is given. -/
  verbose : Bool
  before : List ω
  reply : ρ

/-- What a stream yields when octets are asked for: octets, a failure, or first an
operation on the session. -/
inductive Supply (ω : Type) where
  | bytes (bytes : List UInt8)
  | failure (fault : StreamFault)
  | act (op : ω)

/-- An operation on a session. A send names the operations of its completion. -/
inductive Op where
  | attach
  | setRequestHandler (handler : Handler Op RequestReply)
  | setNotificationHandler (handler : Handler Op NotificationReply)
  | clearRequestHandler
  | clearNotificationHandler
  | request (id : RequestId) (method : String) (payload : List UInt8)
  | notify (method : String) (payload : List UInt8)
  | reportError (error : TransportError)
  | script (reply : PeerReply)
  | failNotifications (error : Option TransportError)
  | complete (slot : Nat) (request : RequestReply) (notification : NotificationReply)
      (peer : PeerReply)
  | sendRequest (method : ClientRequest) (params : Value) (result : Schema) (after : List Op)
  | sendNotification (method : ClientNotification) (params : Value) (after : List Op)
  | rawRequest (method : String) (params : Option Value) (after : List Op)
  | rawNotification (method : String) (params : Option Value) (after : List Op)
  | setTracing (enabled : Bool)
  | getTracing
  | setSink (reactions : List Frame.Reaction) (failing : Option StreamError)
  | serve (input : List (Supply Op))

abbrev RequestHandler := Handler Op RequestReply
abbrev NotificationHandler := Handler Op NotificationReply

inductive Route where
  | direct
  | wire
  deriving DecidableEq, Repr

structure Responder where
  /-- The number of the request among the messages taken in, counted from zero. -/
  number : Nat
  id : RequestId
  method : ServerRequest
  route : Route
  /-- The attachment that took the request, counted from zero. -/
  attachment : Nat
  deriving DecidableEq, Repr

def Responder.inspect (r : Responder) : String :=
  "Responder \x7b id: " ++ r.id.inspect ++ ", method: " ++ r.method.label ++ ", pending: true \x7d"

structure Acknowledger where
  /-- The number of the notification among the messages taken in. -/
  number : Nat
  method : ServerNotification
  route : Route
  deriving DecidableEq, Repr

def Acknowledger.inspect (a : Acknowledger) : String :=
  "Acknowledger \x7b method: " ++ a.method.label ++ ", pending: true \x7d"

inductive Purpose where
  | typed (method : ClientRequest) (result : Schema)
  | raw

/-- What waits for the outcome of the request sent as number `number`. -/
structure Completion where
  number : Nat
  purpose : Purpose
  after : List Op

inductive Held where
  | responder (r : Responder)
  | acknowledger (a : Acknowledger)
  | completion (c : Completion)

/-- The transport over a byte stream: requests wait until a response with their id
comes or the stream ends. -/
structure Connection where
  writer : Frame.Writer := {}
  pending : List (RequestId × Completion) := []
  closed : Bool := false
  /-- The id of the next request; it wraps around. -/
  nextId : Int64 := 1

structure ScriptedPeer where
  replies : List PeerReply := []
  notificationFault : Option TransportError := none

inductive Transport where
  | connection (c : Connection)
  | scripted (p : ScriptedPeer)

structure Session where
  config : Config
  transport : Transport
  attached : Bool := false
  tracing : Bool := false
  /-- Whether earlier attachments traced messages when they ended, the first one first. -/
  formerTracing : List Bool := []
  requestHandler : Option RequestHandler := none
  notificationHandler : Option NotificationHandler := none
  held : List (Nat × Held) := []
  nextSlot : Nat := 0
  sends : Nat := 0
  /-- How many requests and notifications have been taken in. -/
  received : Nat := 0

structure Call where
  label : String
  method : String
  params : Option Value
  id : Option RequestId
  handler : Option String
  /-- The responder or acknowledger as a verbose handler shows it, and its method. -/
  shown : Option (String × String)

inductive Completed where
  | delivered
  | result (v : Value)
  | refused (error : RpcError)
  | failed (error : ExchangeError)
  | broken (error : TransportError)

/-- On whose account octets go out: a request with its id, a notification, or the
answer to the message taken in under a number. -/
inductive Subject where
  | request (number : Nat) (id : RequestId)
  | notification (number : Nat)
  | response (number : Nat) (id : RequestId)
  deriving DecidableEq, Repr

/-- What could be seen. The number of the message that is settled and the account of
what is written do not show in the octets, so they are implicit. -/
inductive Event where
  | handled (call : Call)
  | response {number : Nat} (r : Response)
  | acknowledged {number : Nat} (outcome : Except ExchangeError Unit)
  | transportError (error : TransportError)
  /-- What reached a scripted peer. -/
  | sent (isRequest : Bool) (method : String) (params : Option Value)
  | completed (number : Nat) (outcome : Completed)
  /-- A message that could not be built. -/
  | rejected (cause : Json.Cause)
  /-- What reached the sink. -/
  | written {subject : Subject} (bytes : List UInt8)
  | tracing (enabled : Bool)
  | served (outcome : Except StreamError Unit)
  | log (record : Log.Record)

inductive Task where
  | perform (op : Op)
  | answer (r : Responder) (echoed : Value) (reply : RequestReply)
  | acknowledge (a : Acknowledger) (reply : NotificationReply)
  | finish (c : Completion) (outcome : Except TransportError Outcome)
  | receive (phase : Frame.Phase) (bytes : List UInt8) (input : List (Supply Op))
  | stopped (outcome : Except StreamError Unit)
  | release (held : Held)

/-- The effect of a task: the session after it, what could be seen, and the tasks that
come next, before all others. -/
structure Turn where
  session : Session
  events : List Event := []
  tasks : List Task := []

namespace Turn

def emit (turn : Turn) (events : List Event) : Turn :=
  { turn with events := turn.events ++ events }

/-- Goes on with the session of a turn; the tasks of the first part come first. -/
def andThen (turn : Turn) (more : Session → Turn) : Turn :=
  let next := more turn.session
  ⟨next.session, turn.events ++ next.events, turn.tasks ++ next.tasks⟩

end Turn

namespace Session

def overStream (config : Config) : Session := { config, transport := .connection {} }

def overScript (config : Config) : Session := { config, transport := .scripted {} }

def hold (s : Session) (h : Held) : Session :=
  { s with held := s.held ++ [(s.nextSlot, h)], nextSlot := s.nextSlot + 1 }

def logged (level : Log.Level) (target : Log.Target) (message : String)
    (fields : List (String × Log.Field)) : Event :=
  .log ⟨level, target, message, fields⟩

def attachment (s : Session) : Nat := s.formerTracing.length

/-- Installs fresh slots; tracing starts as configured. An earlier attachment ends. -/
def attach (s : Session) : Session :=
  { s with
    attached := true
    tracing := s.config.traceMessages
    formerTracing := if s.attached then s.formerTracing ++ [s.tracing] else s.formerTracing
    requestHandler := none
    notificationHandler := none }

end Session
end LanguageClient
