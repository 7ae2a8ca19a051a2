import LanguageClient.Session.Step
import Mathlib.Data.List.Basic

/-! Two sessions side by side that differ in their settings and in what they trace.

A revision changes the settings and the flags of tracing, and what could be seen of them; it may
leave out switches of tracing wherever an operation stands, in handlers, completions and streams.
Each function of a session commutes with a revision, so a step does, too. Only a notification
may be read in another way.
-/

set_option autoImplicit false
namespace LanguageClient

open Json (Value)
open Rpc (RequestId Response Outcome)

/-! The operations within an operation. -/

def Handler.under {ρ : Type} (f : Op → Option Op) (handler : Handler Op ρ) : Handler Op ρ :=
  { handler with before := handler.before.filterMap f }

/-- Where an operation is left out, the stream yields no octets instead. -/
def Supply.under (f : Op → Option Op) : Supply Op → Supply Op
  | .bytes octets => .bytes octets
  | .failure fault => .failure fault
  | .act op =>
      match f op with
      | some op => .act op
      | none => .bytes []

def Op.under (f : Op → Option Op) : Op → Op
  | .setRequestHandler handler => .setRequestHandler (handler.under f)
  | .setNotificationHandler handler => .setNotificationHandler (handler.under f)
  | .sendRequest method params result after => .sendRequest method params result (after.filterMap f)
  | .sendNotification method params after => .sendNotification method params (after.filterMap f)
  | .rawRequest method params after => .rawRequest method params (after.filterMap f)
  | .rawNotification method params after => .rawNotification method params (after.filterMap f)
  | .serve input => .serve (input.map (·.under f))
  | op => op

def Op.switches : Op → Bool
  | .setTracing _ => true
  | _ => false

theorem Op.switch_cases (op : Op) : op.switches = false ∨ ∃ on, op = .setTracing on := by
  cases op with
  | setTracing on => exact .inr ⟨on, rfl⟩
  | _ => exact .inl rfl

def Event.traced : Event → Bool
  | .log record => record.target == .wire
  | .tracing _ => true
  | _ => false

structure Revision where
  config : Config → Config
  tracing : Bool → Bool
  event : Event → Option Event
  op : Op → Option Op
  configured : ∀ c, (config c).traceMessages = tracing c.traceMessages
  wire : ∀ on message fields,
    (Session.wire on message fields).filterMap event = Session.wire (tracing on) message fields
  told : ∀ on, event (.tracing on) = some (.tracing (tracing on))
  kept : ∀ e, e.traced = false → event e = some e
  shaped : ∀ o, o.switches = false → op o = some (o.under op)
  /-- A switch is left out only if flags are all the same. -/
  switched : ∀ on, op (.setTracing on) = some (.setTracing (tracing on)) ∨
    op (.setTracing on) = none ∧ ∀ other, tracing other = tracing on

def relabel {κ α : Type} (f : α → α) (entries : List (κ × α)) : List (κ × α) :=
  entries.map fun entry => (entry.1, f entry.2)

section Entries

variable {κ α : Type} (f : α → α)

theorem lookup_relabel [BEq κ] (key : κ) (entries : List (κ × α)) :
    (relabel f entries).lookup key = (entries.lookup key).map f := by
  induction entries with
  | nil => rfl
  | cons entry entries ih =>
    obtain ⟨k, a⟩ := entry
    rw [relabel, List.map_cons, List.lookup_cons, List.lookup_cons, ← relabel, ih]
    cases key == k <;> rfl

theorem filter_relabel (keep : κ → Bool) (entries : List (κ × α)) :
    (relabel f entries).filter (fun entry => keep entry.1) =
      relabel f (entries.filter fun entry => keep entry.1) := by
  rw [relabel, List.filter_map]
  rfl

theorem relabel_append (first second : List (κ × α)) :
    relabel f (first ++ second) = relabel f first ++ relabel f second := List.map_append

end Entries

def Session.notice? (s : Session) : Task → Option (String × List UInt8)
  | .perform (.notify method payload) => some (method, payload)
  | .receive phase bytes input =>
      match (Frame.next phase bytes input.isEmpty).arrival with
      | .frame body =>
          match s.attached, Rpc.Message.ofBytes body with
          | true, .ok (.notification method) => some (method, body)
          | _, _ => none
      | _ => none
  | _ => none

namespace Revision

variable (r : Revision)

def completion (c : Completion) : Completion := { c with after := c.after.filterMap r.op }

def held : Held → Held
  | .completion c => .completion (r.completion c)
  | .responder responder => .responder responder
  | .acknowledger a => .acknowledger a

def connection (c : Connection) : Connection := { c with pending := relabel r.completion c.pending }

def transport : Transport → Transport
  | .connection c => .connection (r.connection c)
  | .scripted peer => .scripted peer

def session (s : Session) : Session :=
  { s with
    config := r.config s.config
    transport := r.transport s.transport
    tracing := r.tracing s.tracing
    formerTracing := s.formerTracing.map r.tracing
    requestHandler := s.requestHandler.map (·.under r.op)
    notificationHandler := s.notificationHandler.map (·.under r.op)
    held := relabel r.held s.held }

def task : Task → Option Task
  | .perform op => (r.op op).map .perform
  | .finish c outcome => some (.finish (r.completion c) outcome)
  | .receive phase bytes input => some (.receive phase bytes (input.map (·.under r.op)))
  | .release h => some (.release (r.held h))
  | .answer responder echoed reply => some (.answer responder echoed reply)
  | .acknowledge a reply => some (.acknowledge a reply)
  | .stopped outcome => some (.stopped outcome)

def turn (t : Turn) : Turn :=
  ⟨r.session t.session, t.events.filterMap r.event, t.tasks.filterMap r.task⟩

/-! What could be seen. -/

section Events

variable {events : List Event}

theorem events_plain (plain : events.any Event.traced = false) : events.filterMap r.event = events := by
  rw [List.any_eq_false] at plain
  have same (e : Event) (member : e ∈ events) : r.event e = some e :=
    r.kept e (Bool.eq_false_iff.mpr (plain e member))
  exact (List.filterMap_congr same).trans List.filterMap_some

theorem tasks_perform (ops : List Op) :
    (ops.map Task.perform).filterMap r.task = (ops.filterMap r.op).map .perform := by
  rw [List.filterMap_map, ← List.filterMap_eq_map, List.filterMap_filterMap]
  refine List.filterMap_congr fun op _ => ?_
  show (r.op op).map Task.perform = _
  cases r.op op <;> rfl

variable {t u : Turn} {more other : Session → Turn}

theorem turn_andThen (told : r.turn t = u) (same : r.turn (more t.session) = other u.session) :
    r.turn (t.andThen more) = u.andThen other := by
  have next : u.andThen other = ⟨(r.turn (more t.session)).session, u.events ++ (r.turn (more t.session)).events,
      u.tasks ++ (r.turn (more t.session)).tasks⟩ := by
    rw [same]
    rfl
  rw [next, ← told]
  simp only [turn, Turn.andThen, List.filterMap_append]

theorem turn_still {s v : Session} (same : r.session s = v) : r.turn { session := s } = { session := v } := by
  subst same
  rfl

theorem turn_then (told : r.turn t = u) (same : ∀ s, r.turn (more s) = other (r.session s)) :
    r.turn (t.andThen more) = u.andThen other :=
  r.turn_andThen told (by rw [same, ← told]; rfl)

theorem turn_emit (plain : events.any Event.traced = false) : r.turn (t.emit events) = (r.turn t).emit events := by
  simp only [turn, Turn.emit, List.filterMap_append, r.events_plain plain]

theorem turn_plain {s : Session} (plain : events.any Event.traced = false) :
    r.turn { session := s, events } = { session := r.session s, events } := by
  simp only [turn, r.events_plain plain, List.filterMap_nil]

end Events

/-! Sessions. -/

section Sessions

variable (s : Session)

theorem session_scripted {s : Session} {peer : ScriptedPeer} (carrier : s.transport = .scripted peer) :
    (r.session s).transport = .scripted peer := by
  simp only [session, carrier, transport]

theorem session_connected {s : Session} {c : Connection} (carrier : s.transport = .connection c) :
    (r.session s).transport = .connection (r.connection c) := by
  simp only [session, carrier, transport]

theorem session_attach : r.session s.attach = (r.session s).attach := by
  cases attached : s.attached <;>
    simp only [session, Session.attach, attached, r.configured, Option.map_none, if_true, Bool.false_eq_true,
      if_false, List.map_append, List.map_cons, List.map_nil]

theorem session_hold (h : Held) : r.session (s.hold h) = (r.session s).hold (r.held h) := by
  simp only [session, Session.hold, relabel_append]
  rfl

theorem session_updateScript (change : ScriptedPeer → ScriptedPeer) :
    r.session (s.updateScript change) = (r.session s).updateScript change := by
  cases carrier : s.transport <;> simp only [session, Session.updateScript, carrier, transport]

theorem session_setSink (reactions : List Frame.Reaction) (failing : Option StreamError) :
    r.session (s.setSink reactions failing) = (r.session s).setSink reactions failing := by
  cases carrier : s.transport <;> simp only [session, Session.setSink, carrier, transport, connection]

theorem traceInbound (method : String) (payload : List UInt8) :
    (s.traceInbound method payload).filterMap r.event = (r.session s).traceInbound method payload :=
  r.wire _ _ _

theorem traceOutbound (method : String) (params : Option Value) :
    (s.traceOutbound method params).filterMap r.event = (r.session s).traceOutbound method params :=
  r.wire _ _ _

theorem traceResponse (attachment : Nat) (response : Response) :
    (s.traceResponse attachment response).filterMap r.event = (r.session s).traceResponse attachment response := by
  have traces : (r.session s).traces attachment = r.tracing (s.traces attachment) := by
    simp only [session, Session.traces, List.getD_eq_getElem?_getD, List.getElem?_map]
    cases s.formerTracing[attachment]? <;> rfl
  rw [Session.traceResponse, Session.traceResponse, traces]
  exact r.wire _ _ _

end Sessions

/-! The connection. -/

section Connections

variable (c : Connection)

theorem connection_write (subject : Subject) (text : List Char) :
    (r.connection c).write subject text =
      (r.connection (c.write subject text).1, (c.write subject text).2.1, (c.write subject text).2.2) := by
  simp only [connection, Connection.write]
  split <;> rfl

theorem write_plain (subject : Subject) (text : List Char) :
    (c.write subject text).2.1.any Event.traced = false := by
  unfold Connection.write
  split <;> rfl

theorem connection_enter (id : RequestId) (completion : Completion) :
    (r.connection c).enter id (r.completion completion) = r.connection (c.enter id completion) := by
  simp only [connection, Connection.enter, relabel_append, filter_relabel r.completion fun key => key != id]
  rfl

theorem connection_take (id : RequestId) :
    (r.connection c).take? id = (c.take? id).map fun (completion, c) => (r.completion completion, r.connection c) := by
  simp only [connection, Connection.take?, lookup_relabel, filter_relabel r.completion fun key => key != id,
    Option.map_map]
  rfl

end Connections

/-! Answers. -/

section Answers

variable (s : Session)

theorem writeResponse (number : Nat) (response : Response) :
    r.turn (s.writeResponse number response) = (r.session s).writeResponse number response := by
  cases carrier : s.transport with
  | scripted peer =>
    simp only [Session.writeResponse, carrier, r.session_scripted carrier]
    exact r.turn_plain rfl
  | connection c =>
    have plain := write_plain c (.response number response.id) response.write
    have wrote := r.connection_write c (.response number response.id) response.write
    rcases written : c.write (.response number response.id) response.write with ⟨d, events, outcome⟩
    rw [written] at plain wrote
    simp only [Session.writeResponse, carrier, r.session_connected carrier, wrote, written]
    rw [r.turn_plain]
    · rfl
    · rw [List.any_append, plain]
      cases outcome <;> rfl

theorem respond (number attachment : Nat) (route : Route) (response : Response) :
    r.turn (s.respond number attachment route response) =
      (r.session s).respond number attachment route response := by
  have told : r.turn { session := s, events := s.traceResponse attachment response ++ [@Event.response number response] } =
      { session := r.session s,
        events := (r.session s).traceResponse attachment response ++ [@Event.response number response] } := by
    have plain : [@Event.response number response].filterMap r.event = [@Event.response number response] :=
      r.events_plain rfl
    simp only [turn, List.filterMap_append, r.traceResponse, plain, List.filterMap_nil]
  cases route with
  | direct => exact told
  | wire =>
    simp only [Session.respond]
    exact r.turn_andThen told (r.writeResponse s number response)

theorem reject (number attachment : Nat) (route : Route) (id : RequestId) (e : ExchangeError) :
    r.turn (s.reject number attachment route id e) = (r.session s).reject number attachment route id e :=
  r.respond s number attachment route _

theorem acknowledge (number : Nat) (route : Route) (method : String) (outcome : Except ExchangeError Unit) :
    r.turn (s.acknowledge number route method outcome) = (r.session s).acknowledge number route method outcome := by
  refine r.turn_plain ?_
  cases route <;> cases outcome <;> rfl

theorem answerWith (responder : Responder) (outcome : Except ExchangeError Value) :
    r.turn (s.answerWith responder outcome) = (r.session s).answerWith responder outcome := by
  cases outcome with
  | ok v => exact r.respond s _ _ _ _
  | error e =>
    simp only [Session.answerWith]
    exact r.turn_andThen (r.turn_plain rfl) (r.reject s _ _ _ _ _)

theorem dropResponder (responder : Responder) :
    r.turn (s.dropResponder responder) = (r.session s).dropResponder responder :=
  r.turn_andThen (r.turn_plain rfl) (r.reject s _ _ _ _ _)

theorem dropAcknowledger (a : Acknowledger) :
    r.turn (s.dropAcknowledger a) = (r.session s).dropAcknowledger a :=
  r.turn_andThen (r.turn_plain rfl) (r.acknowledge s _ _ _ _)

theorem answer (responder : Responder) (echoed : Value) (reply : RequestReply) :
    r.turn (s.answer responder echoed reply) = (r.session s).answer responder echoed reply := by
  cases reply with
  | drop => exact r.dropResponder s responder
  | hold => exact r.turn_still (r.session_hold s _)
  | echo => exact r.answerWith s responder _
  | respond outcome => exact r.answerWith s responder outcome

theorem settleNotification (a : Acknowledger) (reply : NotificationReply) :
    r.turn (s.settleNotification a reply) = (r.session s).settleNotification a reply := by
  cases reply with
  | drop => exact r.dropAcknowledger s a
  | hold => exact r.turn_still (r.session_hold s _)
  | acknowledge outcome => exact r.acknowledge s _ _ _ _

theorem reportError (e : TransportError) : r.turn (s.reportError e) = (r.session s).reportError e :=
  r.turn_plain rfl

theorem reportFrame (e : TransportError) : r.turn (s.reportFrame e) = (r.session s).reportFrame e := by
  have same : (r.session s).attached = s.attached := rfl
  simp only [Session.reportFrame, same]
  split
  · exact r.reportError s e
  · exact r.turn_plain rfl

end Answers

/-! Messages. -/

section Messages

variable (s : Session)

theorem callRequest (handler : RequestHandler) (m : ServerRequest.Message) (responder : Responder) :
    r.turn (s.callRequest handler m responder) = (r.session s).callRequest (handler.under r.op) m responder := by
  simp only [turn, Session.callRequest, List.filterMap_append, r.tasks_perform, Handler.under]
  rw [r.events_plain rfl]
  rfl

theorem callNotification (handler : NotificationHandler) (m : ServerNotification.Message) (a : Acknowledger) :
    r.turn (s.callNotification handler m a) = (r.session s).callNotification (handler.under r.op) m a := by
  simp only [turn, Session.callNotification, List.filterMap_append, r.tasks_perform, Handler.under]
  rw [r.events_plain rfl]
  rfl

theorem turn_admitted (method : String) (payload : List UInt8) {events : List Event}
    (plain : events.any Event.traced = false) :
    r.turn (({ session := s.admitted, events := s.traceInbound method payload } : Turn).emit events) =
      ({ session := (r.session s).admitted, events := (r.session s).traceInbound method payload } : Turn).emit
        events := by
  rw [r.turn_emit plain]
  simp only [turn, r.traceInbound, List.filterMap_nil]
  rfl

theorem handleRequest (route : Route) (id : RequestId) (method : String) (payload : List UInt8) :
    r.turn (s.handleRequest route id method payload) = (r.session s).handleRequest route id method payload := by
  have attachment : (r.session s).attachment = s.attachment := List.length_map _
  have handlers : (r.session s).requestHandler = s.requestHandler.map (·.under r.op) := rfl
  have received : (r.session s).received = s.received := rfl
  simp only [Session.handleRequest, attachment, handlers, received]
  cases ServerRequest.ofName? method with
  | none => exact r.turn_andThen (r.turn_admitted s _ _ rfl) (r.reject _ _ _ _ _ _)
  | some kind =>
    cases s.requestHandler with
    | none => exact r.turn_andThen (r.turn_admitted s _ _ rfl) (r.reject _ _ _ _ _ _)
    | some handler =>
      simp only [Option.map_some]
      cases ServerRequest.Message.decode kind payload with
      | error e => exact r.turn_andThen (r.turn_admitted s _ _ rfl) (r.reject _ _ _ _ _ _)
      | ok m => exact r.turn_andThen (r.turn_admitted s _ _ rfl) (r.callRequest _ _ _ _)

/-- A notification that is handed over is read as it would be without the revision. -/
def Reads (s : Session) (method : String) (payload : List UInt8) : Prop :=
  ∀ kind, ServerNotification.ofName? method = some kind → s.notificationHandler ≠ none →
    ServerNotification.Message.decode kind payload ((r.config s.config).policyFor method) =
      ServerNotification.Message.decode kind payload (s.config.policyFor method)

theorem handleNotification {s : Session} {method : String} {payload : List UInt8} (reads : r.Reads s method payload)
    (route : Route) : r.turn (s.handleNotification route method payload) =
      (r.session s).handleNotification route method payload := by
  have handlers : (r.session s).notificationHandler = s.notificationHandler.map (·.under r.op) := rfl
  have received : (r.session s).received = s.received := rfl
  have settings : (r.session s).config = r.config s.config := rfl
  simp only [Session.handleNotification, handlers, received, settings]
  cases known : ServerNotification.ofName? method with
  | none => exact r.turn_andThen (r.turn_admitted s _ _ rfl) (r.acknowledge _ _ _ _ _)
  | some kind =>
    cases handled : s.notificationHandler with
    | none => exact r.turn_andThen (r.turn_admitted s _ _ rfl) (r.acknowledge _ _ _ _ _)
    | some handler =>
      have same := reads kind known (by simp [handled])
      simp only [Option.map_some, same]
      cases ServerNotification.Message.decode kind payload (s.config.policyFor method) with
      | error e => exact r.turn_andThen (r.turn_admitted s _ _ rfl) (r.acknowledge _ _ _ _ _)
      | ok m => exact r.turn_andThen (r.turn_admitted s _ _ rfl) (r.callNotification _ _ _ _)

theorem refuseEarly (id : RequestId) (method : String) :
    r.turn (s.refuseEarly id method) = (r.session s).refuseEarly id method :=
  r.turn_andThen (r.turn_plain rfl) (r.writeResponse _ _ _)

end Messages

/-! Sends. -/

section Sends

variable (s : Session)

theorem events_completed (number : Nat) (completed : Completed) :
    [Event.completed number completed].filterMap r.event = [Event.completed number completed] :=
  r.events_plain rfl

theorem events_sending (level : Log.Level) (text method : String) (fields : List (String × Log.Field)) :
    [Session.sendingLog level text method fields].filterMap r.event =
      [Session.sendingLog level text method fields] := r.events_plain rfl

theorem settle_plain (method : ClientRequest) (result : Schema) (outcome : Except TransportError Outcome) :
    (Session.settle method result outcome).1.any Event.traced = false := by
  unfold Session.settle
  split
  · rfl
  · rfl
  · split <;> rfl

theorem finish (c : Completion) (outcome : Except TransportError Outcome) :
    r.turn (s.finish c outcome) = (r.session s).finish (r.completion c) outcome := by
  obtain ⟨number, purpose, after⟩ := c
  cases purpose with
  | typed method result =>
    have plain := settle_plain method result outcome
    simp only [turn, Session.finish, completion, r.tasks_perform, List.filterMap_append, r.events_plain plain,
      r.events_completed]
  | raw => simp only [turn, Session.finish, completion, r.tasks_perform, List.nil_append, r.events_completed]

theorem turn_finishing {t : Session} {events : List Event} (plain : events.any Event.traced = false)
    (c : Completion) (outcome : Except TransportError Outcome) :
    r.turn { session := t, events, tasks := [.finish c outcome] } =
      { session := r.session t, events, tasks := [.finish (r.completion c) outcome] } := by
  simp only [turn, r.events_plain plain]
  rfl

theorem transmitRequest (method : String) (params : Option Value) (c : Completion) :
    r.turn (s.transmitRequest method params c) = (r.session s).transmitRequest method params (r.completion c) := by
  cases carrier : s.transport with
  | scripted peer =>
    simp only [Session.transmitRequest, carrier, r.session_scripted carrier]
    cases peer.replies with
    | nil => exact r.turn_finishing rfl c _
    | cons reply rest =>
      cases reply with
      | hold =>
        rw [r.turn_plain rfl, r.session_hold]
        rfl
      | deliver outcome => exact r.turn_finishing rfl c _
  | connection d =>
    have number : (r.completion c).number = c.number := rfl
    have nextId : (r.connection d).nextId = d.nextId := rfl
    have closed : (r.connection d).closed = d.closed := rfl
    simp only [Session.transmitRequest, carrier, r.session_connected carrier, number, nextId, closed]
    split
    · exact r.turn_finishing rfl c _
    · -- The request is entered into the table, and taken out again if it cannot be written.
      generalize RequestId.number d.nextId.toInt = id
      have entered : Connection.enter ⟨(r.connection d).writer, (r.connection d).pending, d.closed, d.nextId + 1⟩ id
          (r.completion c) = r.connection (Connection.enter ⟨d.writer, d.pending, d.closed, d.nextId + 1⟩ id c) :=
        r.connection_enter ⟨d.writer, d.pending, d.closed, d.nextId + 1⟩ id c
      rw [entered]
      generalize Connection.enter _ id c = e
      have plain := write_plain e (.request c.number id) (Rpc.writeRequest id method params)
      have wrote := r.connection_write e (.request c.number id) (Rpc.writeRequest id method params)
      rcases written : e.write (.request c.number id) (Rpc.writeRequest id method params) with ⟨f, events, outcome⟩
      rw [written] at plain wrote
      simp only [wrote]
      cases outcome with
      | ok => exact r.turn_plain plain
      | error e =>
        simp only [r.connection_take]
        cases f.take? id with
        | none => exact r.turn_plain plain
        | some entry => exact r.turn_finishing plain _ _

theorem transmitNotification (method : String) (params : Option Value) :
    (r.session s).transmitNotification method params =
        (r.session (s.transmitNotification method params).1, (s.transmitNotification method params).2.1,
          (s.transmitNotification method params).2.2) ∧
      (s.transmitNotification method params).2.1.any Event.traced = false := by
  cases carrier : s.transport with
  | scripted peer =>
    simp only [Session.transmitNotification, carrier, r.session_scripted carrier]
    exact ⟨trivial, rfl⟩
  | connection c =>
    have closed : (r.connection c).closed = c.closed := rfl
    have sends : (r.session s).sends = s.sends := rfl
    simp only [Session.transmitNotification, carrier, r.session_connected carrier, closed, sends]
    split
    · -- A closed connection writes nothing.
      exact ⟨rfl, rfl⟩
    · have plain := write_plain c (.notification s.sends) (Rpc.writeNotification method params)
      have wrote := r.connection_write c (.notification s.sends) (Rpc.writeNotification method params)
      rcases written : c.write (.notification s.sends) (Rpc.writeNotification method params) with
        ⟨d, events, outcome⟩
      rw [written] at plain wrote
      simp only [wrote]
      exact ⟨rfl, plain⟩

theorem session_counted : r.session s.counted = (r.session s).counted := rfl

theorem sendRequest (method : ClientRequest) (params : Value) (result : Schema) (after : List Op) :
    r.turn (s.sendRequest method params result after) =
      (r.session s).sendRequest method params result (after.filterMap r.op) := by
  unfold Session.sendRequest
  cases ClientRequest.Message.build method params with
  | error cause => exact r.turn_plain rfl
  | ok m =>
    refine r.turn_andThen ?_ (r.transmitRequest s.counted method.name m.params? _)
    simp only [turn, List.filterMap_append, r.traceOutbound, r.events_sending, List.filterMap_nil]
    rfl

theorem sendNotification (method : ClientNotification) (params : Value) (after : List Op) :
    r.turn (s.sendNotification method params after) =
      (r.session s).sendNotification method params (after.filterMap r.op) := by
  unfold Session.sendNotification
  cases ClientNotification.Message.build method params with
  | error cause => exact r.turn_plain rfl
  | ok m =>
    obtain ⟨same, plain⟩ := r.transmitNotification s.counted method.name m.params?
    rcases sent : s.counted.transmitNotification method.name m.params? with ⟨t, written, outcome⟩
    rw [sent] at same plain
    simp only [← r.session_counted, sent, same]
    cases outcome <;>
      simp only [turn, List.filterMap_append, r.traceOutbound, r.events_sending, r.events_plain plain,
        r.events_completed, r.tasks_perform, List.filterMap_nil] <;> rfl

theorem sendRawRequest (method : String) (params : Option Value) (after : List Op) :
    r.turn (s.sendRawRequest method params after) =
      (r.session s).sendRawRequest method params (after.filterMap r.op) :=
  r.transmitRequest s.counted method params ⟨s.counted.sends, .raw, after⟩

theorem sendRawNotification (method : String) (params : Option Value) (after : List Op) :
    r.turn (s.sendRawNotification method params after) =
      (r.session s).sendRawNotification method params (after.filterMap r.op) := by
  obtain ⟨same, plain⟩ := r.transmitNotification s.counted method params
  rcases sent : s.counted.transmitNotification method params with ⟨t, written, outcome⟩
  rw [sent] at same plain
  simp only [Session.sendRawNotification, ← r.session_counted, sent, same]
  cases outcome <;>
    simp only [turn, List.filterMap_append, r.events_plain plain, r.events_completed, r.tasks_perform] <;> rfl

end Sends

/-! Streams. -/

section Streams

variable (s : Session)

theorem correlate (id : RequestId) (outcome : Outcome) :
    r.turn (s.correlate id outcome) = (r.session s).correlate id outcome := by
  cases carrier : s.transport with
  | scripted peer =>
    simp only [Session.correlate, carrier, r.session_scripted carrier]
    exact r.turn_plain rfl
  | connection c =>
    simp only [Session.correlate, carrier, r.session_connected carrier, r.connection_take]
    cases c.take? id with
    | none => exact r.turn_plain rfl
    | some entry => exact @turn_finishing r _ [] rfl _ _

theorem route {s : Session} {body : List UInt8} (reads : ∀ method, s.attached = true →
    Rpc.Message.ofBytes body = .ok (.notification method) → r.Reads s method body) :
    r.turn (s.route body) = (r.session s).route body := by
  have attached : (r.session s).attached = s.attached := rfl
  unfold Session.route
  rw [attached]
  cases read : Rpc.Message.ofBytes body with
  | error e => exact r.reportFrame s _
  | ok message =>
    cases message with
    | response id outcome =>
      cases id with
      | none => exact r.turn_plain rfl
      | some id => exact r.correlate s id outcome
    | request id method =>
      simp only
      split
      · exact r.handleRequest s _ _ _ _
      · exact r.refuseEarly s _ _
    | notification method =>
      simp only
      split
      · rename_i there
        exact r.handleNotification (reads method there read) _
      · exact r.turn_plain rfl

theorem close : r.turn s.close = (r.session s).close := by
  cases carrier : s.transport with
  | scripted peer =>
    simp only [Session.close, carrier, r.session_scripted carrier]
    rfl
  | connection c =>
    have tasks : (c.pending.map fun entry => Task.finish entry.2 (.error .closed)).filterMap r.task =
        (r.connection c).pending.map fun entry => Task.finish entry.2 (.error .closed) := by
      rw [List.filterMap_map, connection, relabel, List.map_map, ← List.filterMap_eq_map]
      rfl
    simp only [Session.close, carrier, r.session_connected carrier, turn, tasks]
    rfl

theorem stop (outcome : Except StreamError Unit) : r.turn (s.stop outcome) = (r.session s).stop outcome := by
  unfold Session.stop
  cases outcome with
  | ok => exact r.turn_then (r.turn_andThen (r.turn_plain rfl) (r.close s)) fun _ => rfl
  | error e => exact r.turn_then (r.turn_andThen (r.turn_plain rfl) (r.close s)) fun _ => rfl

theorem supply (phase : Frame.Phase) (input : List (Supply Op)) :
    r.turn (s.supply phase input) = (r.session s).supply phase (input.map (·.under r.op)) := by
  cases input with
  | nil => rfl
  | cons supply input =>
    cases supply with
    | bytes bytes => rfl
    | act op =>
      simp only [Session.supply, turn, List.map_cons, Supply.under, List.filterMap_cons, task]
      cases r.op op <;> rfl
    | failure fault =>
      simp only [Session.supply, List.map_cons, Supply.under]
      split
      · rfl
      · exact r.stop s _

theorem receive {s : Session} {phase : Frame.Phase} {bytes : List UInt8} {input : List (Supply Op)}
    (reads : ∀ body method, (Frame.next phase bytes input.isEmpty).arrival = .frame body → s.attached = true →
      Rpc.Message.ofBytes body = .ok (.notification method) → r.Reads s method body) :
    r.turn (s.receive phase bytes input) = (r.session s).receive phase bytes (input.map (·.under r.op)) := by
  have notes (notes : List Frame.Note) : (notes.map Session.noteEvent).any Event.traced = false := by
    rw [List.any_map, List.any_eq_false]
    rintro (_ | _) _ <;> exact Bool.false_ne_true
  simp only [Session.receive, List.isEmpty_map]
  generalize Frame.next phase bytes input.isEmpty = step at reads
  cases arrived : step.arrival with
  | frame body =>
    have routed := r.route fun method there read => reads body method arrived there read
    exact r.turn_then (r.turn_andThen (r.turn_plain (notes _)) routed) fun _ => rfl
  | rejected e => exact r.turn_then (r.turn_andThen (r.turn_plain (notes _)) (r.reportFrame s e)) fun _ => rfl
  | failed e => exact r.turn_andThen (r.turn_plain (notes _)) (r.stop s _)
  | ended => exact r.turn_andThen (r.turn_plain (notes _)) (r.stop s _)
  | starved phase => exact r.turn_andThen (r.turn_plain (notes _)) (r.supply s _ _)

end Streams

/-! Steps. -/

section Steps

variable {s : Session}

theorem session_takenUp (keep : Nat → Bool) :
    r.session { s with held := s.held.filter fun entry => keep entry.1 } =
      { r.session s with held := (r.session s).held.filter fun entry => keep entry.1 } := by
  simp only [session, filter_relabel]

theorem complete (slot : Nat) (request : RequestReply) (notification : NotificationReply) (peer : PeerReply) :
    r.turn (s.complete slot request notification peer) =
      (r.session s).complete slot request notification peer := by
  have found : (r.session s).held.lookup slot = (s.held.lookup slot).map r.held := lookup_relabel _ _ _
  simp only [Session.complete, found]
  cases s.held.lookup slot with
  | none => rfl
  | some held =>
    have taken := @session_takenUp r s fun key => key != slot
    simp only [Option.map_some, ← taken]
    cases held with
    | responder responder => exact r.answer _ _ _ _
    | acknowledger a => exact r.settleNotification _ _ _
    | completion c =>
      cases peer with
      | hold => exact r.turn_still (r.session_hold _ _)
      | deliver outcome => exact @turn_finishing r _ [] rfl _ _

theorem release (h : Held) : r.turn (s.release h) = (r.session s).release (r.held h) := by
  cases h with
  | responder responder => exact r.dropResponder s responder
  | acknowledger a => exact r.dropAcknowledger s a
  | completion c => rfl

theorem perform {op : Op} (stays : op.switches = false)
    (reads : ∀ method payload, op = .notify method payload → r.Reads s method payload) :
    r.turn (s.perform op) = (r.session s).perform (op.under r.op) := by
  cases op with
  | attach => exact r.turn_still (r.session_attach s)
  | setRequestHandler handler => rfl
  | setNotificationHandler handler => rfl
  | clearRequestHandler => rfl
  | clearNotificationHandler => rfl
  | request id method payload => exact r.handleRequest s _ _ _ _
  | notify method payload => exact r.handleNotification (reads _ _ rfl) _
  | reportError e => exact r.reportError s e
  | script reply => exact r.turn_still (r.session_updateScript s _)
  | failNotifications e => exact r.turn_still (r.session_updateScript s _)
  | complete slot request notification peer => exact r.complete _ _ _ _
  | sendRequest method params result after => exact r.sendRequest s _ _ _ _
  | sendNotification method params after => exact r.sendNotification s _ _ _
  | rawRequest method params after => exact r.sendRawRequest s _ _ _
  | rawNotification method params after => exact r.sendRawNotification s _ _ _
  | setTracing on => cases stays
  | getTracing =>
    have told : [Event.tracing s.tracing].filterMap r.event = [Event.tracing (r.tracing s.tracing)] := by
      rw [List.filterMap_cons_some (r.told _), List.filterMap_nil]
    simp only [turn, Session.perform, told]
    rfl
  | setSink reactions failing =>
    exact r.turn_still (r.session_setSink s _ _)
  | serve input => rfl

theorem step {task other : Task} (kept : r.task task = some other)
    (reads : ∀ method payload, s.notice? task = some (method, payload) → r.Reads s method payload) :
    r.turn (s.step task) = (r.session s).step other := by
  cases task with
  | perform op =>
    obtain ⟨image, mapped, rfl⟩ := Option.map_eq_some_iff.mp kept
    rcases op.switch_cases with stays | ⟨on, rfl⟩
    · rw [r.shaped op stays] at mapped
      obtain rfl := Option.some.inj mapped
      exact r.perform stays fun method payload same => reads method payload (by rw [same]; rfl)
    · -- The task has an image, so the switch is not one that is left out.
      obtain same | ⟨none, -⟩ := r.switched on
      · rw [same] at mapped
        obtain rfl := Option.some.inj mapped
        rfl
      · cases none.symm.trans mapped
  | answer responder echoed reply =>
    cases kept
    exact r.answer s _ _ _
  | acknowledge a reply =>
    cases kept
    exact r.settleNotification s _ _
  | finish c outcome =>
    cases kept
    exact r.finish s _ _
  | receive phase bytes input =>
    cases kept
    refine r.receive fun body method arrived attached read => reads method body ?_
    simp only [Session.notice?, arrived, attached, read]
  | stopped outcome =>
    cases kept
    exact r.turn_plain rfl
  | release h =>
    cases kept
    exact r.release h

/-- Only switches of tracing are left out. -/
theorem switch_of_dropped {task : Task} (dropped : r.task task = none) :
    ∃ on, task = .perform (.setTracing on) ∧ ∀ other, r.tracing other = r.tracing on := by
  cases task with
  | perform op =>
    have none : r.op op = none := Option.map_eq_none_iff.mp dropped
    rcases op.switch_cases with stays | ⟨on, rfl⟩
    · cases (r.shaped op stays).symm.trans none
    · obtain same | ⟨-, constant⟩ := r.switched on
      · cases same.symm.trans none
      · exact ⟨on, rfl, constant⟩
  | _ => cases dropped

theorem step_dropped {task : Task} (dropped : r.task task = none) :
    r.session (s.step task).session = r.session s ∧ (s.step task).events = [] ∧ (s.step task).tasks = [] := by
  obtain ⟨on, rfl, constant⟩ := r.switch_of_dropped dropped
  refine ⟨?_, rfl, rfl⟩
  simp only [Session.step, Session.perform, session, constant s.tracing]

end Steps

end Revision
end LanguageClient
