import LanguageClient.Proofs.Session.Reading
import LanguageClient.Proofs.Session.Sending

/-! What passes without a word to the handler of errors.

Taking messages in, answering them and sending others leaves the attachment of a session and
its handlers as they were, and reports no error of the transport. Handlers change by the few
operations that are meant for it.
-/

set_option autoImplicit false
namespace LanguageClient

open Json (Value)
open Rpc (RequestId Response Outcome)

def Event.report? : Event → Option TransportError
  | .transportError e => some e
  | _ => none

def Task.enrolls : Task → Bool
  | .perform .attach => true
  | .perform (.setRequestHandler _) | .perform (.setNotificationHandler _) => true
  | .perform .clearRequestHandler | .perform .clearNotificationHandler => true
  | _ => false

namespace Session

structure Attendance where
  attached : Bool
  requests : Option RequestHandler
  notifications : Option NotificationHandler

def attendance (s : Session) : Attendance := ⟨s.attached, s.requestHandler, s.notificationHandler⟩

/-- Those who take messages stay the same, and no error is reported. -/
structure Untroubled (s : Session) (turn : Turn) : Prop where
  attendance : turn.session.attendance = s.attendance
  unreported : turn.events.filterMap Event.report? = []

namespace Untroubled

variable {s t : Session} {turn : Turn} {more : Session → Turn} {events : List Event} {tasks : List Task}

theorem still (kept : t.attendance = s.attendance) (silent : events.filterMap Event.report? = []) :
    Untroubled s { session := t, events, tasks } := ⟨kept, silent⟩

theorem andThen (h : Untroubled s turn) (k : Untroubled turn.session (more turn.session)) :
    Untroubled s (turn.andThen more) where
  attendance := k.attendance.trans h.attendance
  unreported := by rw [Turn.andThen, List.filterMap_append, h.unreported, k.unreported, List.nil_append]

theorem emit (h : Untroubled s turn) (silent : events.filterMap Event.report? = []) :
    Untroubled s (turn.emit events) where
  attendance := h.attendance
  unreported := by rw [Turn.emit, List.filterMap_append, h.unreported, silent, List.nil_append]

end Untroubled

section Turns

variable (s : Session)

theorem untroubled_writeResponse (number : Nat) (r : Response) : Untroubled s (s.writeResponse number r) := by
  cases carrier : s.transport with
  | scripted peer =>
    simp only [writeResponse, carrier]
    exact .still rfl rfl
  | connection c =>
    simp only [writeResponse, carrier]
    refine .still rfl ?_
    rw [List.filterMap_append, filterMap_write Event.report? fun _ _ => rfl]
    split <;> rfl

theorem untroubled_respond (number attachment : Nat) (route : Route) (r : Response) :
    Untroubled s (s.respond number attachment route r) := by
  have told : Untroubled s
      { session := s, events := s.traceResponse attachment r ++ [@Event.response number r] } := by
    refine .still rfl ?_
    rw [List.filterMap_append, traceResponse, filterMap_wire Event.report? fun _ => rfl]
    rfl
  cases route with
  | direct => exact told
  | wire =>
    simp only [respond]
    exact told.andThen (s.untroubled_writeResponse number r)

theorem untroubled_reject (number attachment : Nat) (route : Route) (id : RequestId) (e : ExchangeError) :
    Untroubled s (s.reject number attachment route id e) :=
  s.untroubled_respond number attachment route _

theorem untroubled_acknowledge (number : Nat) (route : Route) (method : String)
    (outcome : Except ExchangeError Unit) : Untroubled s (s.acknowledge number route method outcome) := by
  refine .still rfl ?_
  cases route <;> cases outcome <;> rfl

theorem untroubled_admitted (method : String) (payload : List UInt8) :
    Untroubled s { session := s.admitted, events := s.traceInbound method payload } :=
  .still rfl (filterMap_wire Event.report? (fun _ => rfl) _ _ _)

theorem untroubled_handleRequest (route : Route) (id : RequestId) (method : String) (payload : List UInt8) :
    Untroubled s (s.handleRequest route id method payload) := by
  have admitted := s.untroubled_admitted method payload
  unfold handleRequest
  split
  · exact (admitted.emit rfl).andThen (untroubled_reject _ _ _ _ _ _)
  · split
    · exact (admitted.emit rfl).andThen (untroubled_reject _ _ _ _ _ _)
    · split
      · exact (admitted.emit rfl).andThen (untroubled_reject _ _ _ _ _ _)
      · exact (admitted.emit rfl).andThen (.still rfl rfl)

theorem untroubled_handleNotification (route : Route) (method : String) (payload : List UInt8) :
    Untroubled s (s.handleNotification route method payload) := by
  have admitted := s.untroubled_admitted method payload
  unfold handleNotification
  split
  · exact (admitted.emit rfl).andThen (untroubled_acknowledge _ _ _ _ _)
  · split
    · exact (admitted.emit rfl).andThen (untroubled_acknowledge _ _ _ _ _)
    · split
      · exact (admitted.emit rfl).andThen (untroubled_acknowledge _ _ _ _ _)
      · exact (admitted.emit rfl).andThen (.still rfl rfl)

theorem untroubled_answerWith (r : Responder) (answer : Except ExchangeError Value) :
    Untroubled s (s.answerWith r answer) := by
  unfold answerWith
  split
  · exact s.untroubled_respond _ _ _ _
  · exact (Untroubled.still rfl rfl).andThen (s.untroubled_reject _ _ _ _ _)

theorem untroubled_dropResponder (r : Responder) : Untroubled s (s.dropResponder r) :=
  (Untroubled.still rfl rfl).andThen (s.untroubled_reject _ _ _ _ _)

theorem untroubled_dropAcknowledger (a : Acknowledger) : Untroubled s (s.dropAcknowledger a) :=
  (Untroubled.still rfl rfl).andThen (s.untroubled_acknowledge _ _ _ _)

theorem untroubled_answer (r : Responder) (echoed : Value) (reply : RequestReply) :
    Untroubled s (s.answer r echoed reply) := by
  cases reply with
  | drop => exact s.untroubled_dropResponder r
  | hold => exact .still rfl rfl
  | echo => exact s.untroubled_answerWith r (.ok echoed)
  | respond outcome => exact s.untroubled_answerWith r outcome

theorem untroubled_settleNotification (a : Acknowledger) (reply : NotificationReply) :
    Untroubled s (s.settleNotification a reply) := by
  cases reply with
  | drop => exact s.untroubled_dropAcknowledger a
  | hold => exact .still rfl rfl
  | acknowledge outcome => exact s.untroubled_acknowledge _ _ _ _

theorem untroubled_finish (c : Completion) (outcome : Except TransportError Outcome) :
    Untroubled s (s.finish c outcome) := by
  have settled (method : ClientRequest) (result : Schema) :
      (settle method result outcome).1.filterMap Event.report? = [] := by
    unfold settle
    split
    · rfl
    · rfl
    · split <;> rfl
  unfold finish
  refine .still rfl ?_
  cases c.purpose with
  | raw => rfl
  | typed method result =>
    rw [List.filterMap_append, settled]
    rfl

theorem attendance_transmitRequest (s : Session) (method : String) (params : Option Value)
    (completion : Completion) : (s.transmitRequest method params completion).session.attendance = s.attendance := by
  unfold transmitRequest
  split
  · split
    · rfl
    · split <;> rfl
  · dsimp only
    split
    · rfl
    · split
      · rfl
      · split <;> rfl

theorem attendance_transmitNotification (s : Session) (method : String) (params : Option Value) :
    (s.transmitNotification method params).1.attendance = s.attendance := by
  unfold transmitNotification
  split
  · rfl
  · split <;> rfl

theorem attendance_requesting (s : Session) (records : List Log.Record) (method : String) (params : Option Value)
    (purpose : Purpose) (after : List Op) :
    (s.requesting records method params purpose after).session.attendance = s.attendance := by
  rw [requesting, Turn.andThen]
  exact s.counted.attendance_transmitRequest method params ⟨s.counted.sends, purpose, after⟩

theorem attendance_announcing (s : Session) (front back : List Log.Record) (method : String)
    (params : Option Value) (wrap : TransportError → Completed) (after : List Op) :
    (s.announcing front back method params wrap after).session.attendance = s.attendance :=
  s.counted.attendance_transmitNotification method params

theorem attendance_sendRequest (s : Session) (method : ClientRequest) (params : Value) (result : Schema)
    (after : List Op) : (s.sendRequest method params result after).session.attendance = s.attendance := by
  cases built : ClientRequest.Message.build method params with
  | error cause => simp only [sendRequest, built]
  | ok message =>
    obtain ⟨records, turn⟩ := s.sendRequest_built built result after
    rw [turn, attendance_requesting]

theorem attendance_sendNotification (s : Session) (method : ClientNotification) (params : Value)
    (after : List Op) : (s.sendNotification method params after).session.attendance = s.attendance := by
  cases built : ClientNotification.Message.build method params with
  | error cause => simp only [sendNotification, built]
  | ok message =>
    obtain ⟨front, back, turn⟩ := s.sendNotification_built built after
    rw [turn, attendance_announcing]

theorem untroubled_correlate (id : RequestId) (outcome : Outcome) :
    Untroubled s (s.correlate id outcome) := by
  cases carrier : s.transport with
  | scripted peer =>
    simp only [correlate, carrier]
    exact .still rfl rfl
  | connection c =>
    cases found : c.take? id with
    | none =>
      simp only [correlate, carrier, found, Option.map_none]
      exact .still rfl rfl
    | some taken =>
      simp only [correlate, carrier, found, Option.map_some]
      exact .still rfl rfl

theorem untroubled_refuseEarly (id : RequestId) (method : String) : Untroubled s (s.refuseEarly id method) :=
  Untroubled.andThen (.still rfl rfl) (untroubled_writeResponse _ _ _)

theorem untroubled_close : Untroubled s s.close := by
  unfold close
  split <;> exact .still rfl rfl

theorem untroubled_stop (outcome : Except StreamError Unit) : Untroubled s (s.stop outcome) := by
  have finishing {record : Event} (silent : record.report? = none) :
      Untroubled s ((({ session := s, events := [record] } : Turn).andThen close).andThen fun s =>
        { session := s, tasks := [.stopped outcome] }) := by
    have told : Untroubled s { session := s, events := [record] } :=
      .still rfl (List.filterMap_cons_none silent)
    exact (told.andThen (untroubled_close s)).andThen (.still rfl rfl)
  cases outcome with
  | ok => exact finishing rfl
  | error e => exact finishing rfl

theorem untroubled_supply (phase : Frame.Phase) (input : List (Supply Op)) :
    Untroubled s (s.supply phase input) := by
  unfold supply
  split
  · exact .still rfl rfl
  · exact .still rfl rfl
  · exact .still rfl rfl
  · split
    · exact .still rfl rfl
    · exact s.untroubled_stop _

theorem untroubled_complete (slot : Nat) (request : RequestReply) (notification : NotificationReply)
    (peer : PeerReply) : Untroubled s (s.complete slot request notification peer) := by
  unfold complete
  split
  · exact .still rfl rfl
  · split
    · have answered := untroubled_answer { s with held := s.held.filter fun entry => entry.1 != slot }
      exact ⟨(answered _ _ _).attendance, (answered _ _ _).unreported⟩
    · have settled := untroubled_settleNotification
        { s with held := s.held.filter fun entry => entry.1 != slot }
      exact ⟨(settled _ _).attendance, (settled _ _).unreported⟩
    · split <;> exact .still rfl rfl

theorem untroubled_release (held : Held) : Untroubled s (s.release held) := by
  cases held with
  | responder r => exact s.untroubled_dropResponder r
  | acknowledger a => exact s.untroubled_dropAcknowledger a
  | completion c => exact .still rfl rfl

end Turns

/-! Those who take messages change by a few operations only, and an attachment ends only when
another one begins. -/

section Attendance

variable {s : Session}

theorem attendance_reportFrame (e : TransportError) : (s.reportFrame e).session.attendance = s.attendance := by
  unfold reportFrame
  split <;> rfl

theorem attendance_route (body : List UInt8) : (s.route body).session.attendance = s.attendance := by
  unfold route
  split
  · exact attendance_reportFrame _
  · exact (s.untroubled_correlate _ _).attendance
  · rfl
  · split
    · exact (s.untroubled_handleRequest _ _ _ _).attendance
    · exact (s.untroubled_refuseEarly _ _).attendance
  · split
    · exact (s.untroubled_handleNotification _ _ _).attendance
    · rfl

theorem attendance_receive (phase : Frame.Phase) (bytes : List UInt8) (input : List (Supply Op)) :
    (s.receive phase bytes input).session.attendance = s.attendance := by
  unfold receive
  dsimp only
  split
  · exact attendance_route _
  · exact attendance_reportFrame _
  · rename_i e _
    exact (s.untroubled_stop (.error e)).attendance
  · exact (s.untroubled_stop (.ok ())).attendance
  · exact (s.untroubled_supply _ _).attendance

theorem attendance_setSink (reactions : List Frame.Reaction) (failing : Option StreamError) :
    (s.setSink reactions failing).attendance = s.attendance := by
  unfold setSink
  split <;> rfl

theorem attendance_updateScript (change : ScriptedPeer → ScriptedPeer) :
    (s.updateScript change).attendance = s.attendance := by
  unfold updateScript
  split <;> rfl

theorem attendance_perform {op : Op} (plain : Task.enrolls (.perform op) = false) :
    (s.perform op).session.attendance = s.attendance := by
  cases op with
  | attach | setRequestHandler | setNotificationHandler | clearRequestHandler | clearNotificationHandler =>
    cases plain
  | request id method payload => exact (s.untroubled_handleRequest _ _ _ _).attendance
  | notify method payload => exact (s.untroubled_handleNotification _ _ _).attendance
  | complete slot request notification peer => exact (s.untroubled_complete _ _ _ _).attendance
  | sendRequest method params result after => exact s.attendance_sendRequest _ _ _ _
  | sendNotification method params after => exact s.attendance_sendNotification _ _ _
  | rawRequest method params after =>
    rw [perform, sendRawRequest_eq, attendance_requesting]
  | rawNotification method params after =>
    rw [perform, sendRawNotification_eq, attendance_announcing]
  | setSink reactions failing => exact attendance_setSink _ _
  | script reply => exact attendance_updateScript _
  | failNotifications e => exact attendance_updateScript _
  | reportError | setTracing | getTracing | serve => rfl

theorem attendance_step {task : Task} (plain : task.enrolls = false) :
    (s.step task).session.attendance = s.attendance := by
  cases task with
  | perform op => exact attendance_perform plain
  | answer r echoed reply => exact (s.untroubled_answer _ _ _).attendance
  | acknowledge a reply => exact (s.untroubled_settleNotification _ _).attendance
  | finish c outcome => exact (s.untroubled_finish _ _).attendance
  | receive phase bytes input => exact attendance_receive _ _ _
  | stopped outcome => rfl
  | release held => exact (s.untroubled_release _).attendance

theorem attached_step (attached : s.attached = true) (task : Task) :
    (s.step task).session.attached = true := by
  cases enrolls : task.enrolls with
  | false => exact (congrArg Attendance.attached (attendance_step enrolls)).trans attached
  | true =>
    unfold Task.enrolls at enrolls
    split at enrolls
    · rfl
    · exact attached
    · exact attached
    · exact attached
    · exact attached
    · cases enrolls

theorem attached_of_course {t : Session} {tasks agenda : List Task} {ms : List Moment}
    (attached : s.attached = true) (course : Course s tasks ms t agenda) :
    t.attached = true ∧ ∀ m ∈ ms, m.session.attached = true := by
  induction course with
  | start => exact ⟨attached, fun _ member => absurd member List.not_mem_nil⟩
  | step _ ih =>
    refine ⟨attached_step ih.1 _, fun m member => ?_⟩
    rcases List.mem_append.mp member with before | last
    · exact ih.2 m before
    · rw [List.mem_singleton.mp last]
      exact ih.1
  | call op _ _ ih => exact ih
  | letGo _ _ ih => exact ih

end Attendance

end Session
end LanguageClient
