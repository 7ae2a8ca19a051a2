import LanguageClient.Proofs.Result
import LanguageClient.Proofs.Session.Dispatch
import LanguageClient.Proofs.Session.Incoming
import LanguageClient.Proofs.Session.Reply

/-! Who takes a message: the handler that was set last.

A handler that runs may set handlers, clear them, or have further messages taken in. What counts
is the order in which all of this is done: each slot holds what was put there last. Once a handler
is called, the slots have no say any longer in what becomes of the message.
-/

set_option autoImplicit false
namespace LanguageClient

open Json (Value)
open Rpc (RequestId Response)

namespace Event

def call? : Event → Option Call
  | .handled call => some call
  | _ => none

def acknowledgement? : Event → Option (Except ExchangeError Unit)
  | .acknowledged outcome => some outcome
  | _ => none

end Event

def RequestReply.response? (r : Responder) (echoed : Value) : RequestReply → Option Response
  | .drop => some ⟨r.id, told (.error (.responseDropped r.method.name))⟩
  | .hold => none
  | .echo => some ⟨r.id, told (.ok echoed)⟩
  | .respond outcome => some ⟨r.id, told outcome⟩

def NotificationReply.outcome? (a : Acknowledger) : NotificationReply → Option (Except ExchangeError Unit)
  | .drop => some (.error (.responseDropped a.method.name))
  | .hold => none
  | .acknowledge outcome => some outcome

def Handler.call {ρ : Type} (handler : Handler Op ρ) (label method : String) (params : Option Value)
    (id : Option RequestId) (shown : String) : Call :=
  ⟨label, method, params, id, handler.name, if handler.verbose then some (shown, method) else none⟩

def Task.answers : Task → Bool
  | .answer .. | .acknowledge .. | .release _ | .perform (.complete ..) => true
  | _ => false

namespace Moment

def replying? (m : Moment) : Option (Responder × Value × RequestReply) :=
  match m.task with
  | .answer r echoed reply => some (r, echoed, reply)
  | .release (.responder r) => some (r, .null, .drop)
  | .perform (.complete slot request _ _) =>
      match m.session.held.lookup slot with
      | some (.responder r) => some (r, .null, request)
      | _ => none
  | _ => none

def acknowledging? (m : Moment) : Option (Acknowledger × NotificationReply) :=
  match m.task with
  | .acknowledge a reply => some (a, reply)
  | .release (.acknowledger a) => some (a, .drop)
  | .perform (.complete slot _ notification _) =>
      match m.session.held.lookup slot with
      | some (.acknowledger a) => some (a, notification)
      | _ => none
  | _ => none

end Moment

namespace Session

def withHandlers (s : Session) (requests : Option RequestHandler) (notifications : Option NotificationHandler) :
    Session :=
  { s with requestHandler := requests, notificationHandler := notifications }

end Session

def Turn.withHandlers (turn : Turn) (requests : Option RequestHandler)
    (notifications : Option NotificationHandler) : Turn :=
  { turn with session := turn.session.withHandlers requests notifications }

/-- A place for a handler: what it holds, and what a task makes of it. -/
structure Slot (ρ : Type) where
  handler : Session → Option (Handler Op ρ)
  change : Task → Option (Option (Handler Op ρ))
  step : ∀ s task, handler (s.step task).session = (change task).getD (handler s)
  letGo : ∀ s, handler { s with held := [] } = handler s

namespace Slot

variable {ρ : Type} (slot : Slot ρ)

/-- The handler that was set last, with nothing done to its slot since. -/
def Latest (ms : List Moment) (handler : Handler Op ρ) : Prop :=
  ∃ before m after, ms = before ++ m :: after ∧ slot.change m.task = some (some handler) ∧
    ∀ k ∈ after, slot.change k.task = none

variable {slot} {ms : List Moment} {m : Moment} {handler : Handler Op ρ}

theorem latest_changed {held : Option (Handler Op ρ)} (changed : slot.change m.task = some held) :
    slot.Latest (ms ++ [m]) handler ↔ held = some handler := by
  constructor
  · rintro ⟨before, k, after, split, set, still⟩
    -- The handler was set in this very step, or this step would have left the slot alone.
    rcases Session.cut_at_last split with ⟨-, rfl, -⟩ | ⟨between, -, rfl⟩
    · exact Option.some.inj (changed.symm.trans set)
    · cases changed.symm.trans (still m (by simp))
  · rintro rfl
    exact ⟨ms, m, [], rfl, changed, fun _ member => absurd member List.not_mem_nil⟩

theorem latest_unchanged (kept : slot.change m.task = none) :
    slot.Latest (ms ++ [m]) handler ↔ slot.Latest ms handler := by
  constructor
  · rintro ⟨before, k, after, split, set, still⟩
    rcases Session.cut_at_last split with ⟨-, rfl, -⟩ | ⟨between, rfl, rfl⟩
    · cases kept.symm.trans set
    · exact ⟨before, k, between, rfl, set, fun n member => still n (List.mem_append_left _ member)⟩
  · rintro ⟨before, k, after, rfl, set, still⟩
    refine ⟨before, k, after ++ [m], by simp, set, fun n member => ?_⟩
    rcases List.mem_append.mp member with earlier | last
    · exact still n earlier
    · rwa [List.mem_singleton.mp last]

theorem latest_of_course (slot : Slot ρ) {first t : Session} {tasks rest : List Task}
    (empty : slot.handler first = none) (course : Session.Course first tasks ms t rest) (handler : Handler Op ρ) :
    slot.handler t = some handler ↔ slot.Latest ms handler := by
  induction course with
  | start => simp [empty, Latest]
  | @step ms s task rest _ ih =>
    rw [slot.step]
    cases change : slot.change task with
    | none => rw [Option.getD_none, ih, latest_unchanged change]
    | some held => rw [Option.getD_some, latest_changed change]
  | call _ _ _ ih => exact ih
  | letGo _ _ ih => rw [slot.letGo, ih]

def requests : Slot RequestReply where
  handler := Session.requestHandler
  change
    | .perform (.setRequestHandler handler) => some (some handler)
    | .perform .clearRequestHandler | .perform .attach => some none
    | _ => none
  step s task := by
    split
    · rfl
    · rfl
    · rfl
    · rename_i unset uncleared unattached
      cases enrolls : task.enrolls with
      | false => exact congrArg Session.Attendance.requests (Session.attendance_step enrolls)
      | true =>
        unfold Task.enrolls at enrolls
        split at enrolls
        · exact (unattached rfl).elim
        · exact (unset _ rfl).elim
        · rfl
        · exact (uncleared rfl).elim
        · rfl
        · cases enrolls
  letGo _ := rfl

def notifications : Slot NotificationReply where
  handler := Session.notificationHandler
  change
    | .perform (.setNotificationHandler handler) => some (some handler)
    | .perform .clearNotificationHandler | .perform .attach => some none
    | _ => none
  step s task := by
    split
    · rfl
    · rfl
    · rfl
    · rename_i unset uncleared unattached
      cases enrolls : task.enrolls with
      | false => exact congrArg Session.Attendance.notifications (Session.attendance_step enrolls)
      | true =>
        unfold Task.enrolls at enrolls
        split at enrolls
        · exact (unattached rfl).elim
        · rfl
        · exact (unset _ rfl).elim
        · rfl
        · exact (uncleared rfl).elim
        · cases enrolls
  letGo _ := rfl

end Slot

namespace Session

/-! Settling a message without regard to the slots. -/

section Answers

variable (s : Session) (requests : Option RequestHandler) (notifications : Option NotificationHandler)

theorem blind_writeResponse (number : Nat) (r : Response) :
    (s.withHandlers requests notifications).writeResponse number r =
      (s.writeResponse number r).withHandlers requests notifications := by
  cases carrier : s.transport <;> simp only [writeResponse, withHandlers, Turn.withHandlers, carrier]

theorem blind_respond (number attachment : Nat) (route : Route) (r : Response) :
    (s.withHandlers requests notifications).respond number attachment route r =
      (s.respond number attachment route r).withHandlers requests notifications := by
  cases route with
  | direct => rfl
  | wire =>
    simp only [respond, Turn.andThen, blind_writeResponse]
    rfl

theorem blind_answerWith (r : Responder) (outcome : Except ExchangeError Value) :
    (s.withHandlers requests notifications).answerWith r outcome =
      (s.answerWith r outcome).withHandlers requests notifications := by
  cases outcome with
  | ok v => exact s.blind_respond requests notifications _ _ _ _
  | error e =>
    simp only [answerWith, reject, Turn.andThen, blind_respond]
    rfl

theorem blind_dropResponder (r : Responder) :
    (s.withHandlers requests notifications).dropResponder r =
      (s.dropResponder r).withHandlers requests notifications := by
  simp only [dropResponder, reject, Turn.andThen, blind_respond]
  rfl

theorem blind_answer (r : Responder) (echoed : Value) (reply : RequestReply) :
    (s.withHandlers requests notifications).answer r echoed reply =
      (s.answer r echoed reply).withHandlers requests notifications := by
  cases reply with
  | drop => exact s.blind_dropResponder requests notifications r
  | hold => rfl
  | echo => exact s.blind_answerWith requests notifications r (.ok echoed)
  | respond outcome => exact s.blind_answerWith requests notifications r outcome

theorem blind_settleNotification (a : Acknowledger) (reply : NotificationReply) :
    (s.withHandlers requests notifications).settleNotification a reply =
      (s.settleNotification a reply).withHandlers requests notifications := by
  cases reply <;> rfl

theorem blind_complete (slot : Nat) (request : RequestReply) (notification : NotificationReply) (peer : PeerReply) :
    (s.withHandlers requests notifications).complete slot request notification peer =
      (s.complete slot request notification peer).withHandlers requests notifications := by
  have same : (s.withHandlers requests notifications).held = s.held := rfl
  simp only [complete, same]
  cases s.held.lookup slot with
  | none => rfl
  | some held =>
    cases held with
    | responder r => exact blind_answer { s with held := s.held.filter fun entry => entry.1 != slot } _ _ _ _ _
    | acknowledger a =>
      exact blind_settleNotification { s with held := s.held.filter fun entry => entry.1 != slot } _ _ _ _
    | completion c => cases peer <;> rfl

theorem blind_release (held : Held) :
    (s.withHandlers requests notifications).release held =
      (s.release held).withHandlers requests notifications := by
  cases held with
  | responder r => exact s.blind_dropResponder requests notifications r
  | acknowledger a => rfl
  | completion c => rfl

theorem blind_step {task : Task} (answers : task.answers = true) :
    (s.withHandlers requests notifications).step task = (s.step task).withHandlers requests notifications := by
  unfold Task.answers at answers
  split at answers
  · exact s.blind_answer requests notifications _ _ _
  · exact s.blind_settleNotification requests notifications _ _
  · exact s.blind_release requests notifications _
  · exact s.blind_complete requests notifications _ _ _ _
  · cases answers

end Answers

/-! What a message comes to. -/

/-- A handler is called for a message: it is told of it, and what it does and its reply come next. -/
structure Called (m : Moment) (call : Call) (ops : List Op) (reply : Task) : Prop where
  told : m.turn.events.filterMap Event.call? = [call]
  next : ∃ reads, m.turn.tasks = ops.map .perform ++ reply :: reads ∧ ∀ task ∈ reads, task.serves = true

/-- A message is done with at once, and no handler is told of it. -/
structure Uncalled (m : Moment) : Prop where
  untold : m.turn.events.filterMap Event.call? = []
  next : ∀ task ∈ m.turn.tasks, task.serves = true

section Dispatch

variable {s : Session} {m : Moment} {x : Incoming}

theorem uncalled_writeResponse (s : Session) (number : Nat) (r : Response) :
    (s.writeResponse number r).events.filterMap Event.call? = [] ∧ (s.writeResponse number r).tasks = [] := by
  cases carrier : s.transport with
  | scripted peer => simp only [writeResponse, carrier, List.filterMap_nil, and_self]
  | connection c =>
    simp only [writeResponse, carrier, List.filterMap_append, filterMap_write Event.call? fun _ _ => rfl, and_true]
    split <;> rfl

theorem uncalled_respond (s : Session) (number attachment : Nat) (route : Route) (r : Response) :
    (s.respond number attachment route r).events.filterMap Event.call? = [] ∧
      (s.respond number attachment route r).tasks = [] := by
  have told : (s.traceResponse attachment r ++ [@Event.response number r]).filterMap Event.call? = [] := by
    rw [List.filterMap_append, traceResponse, filterMap_wire Event.call? fun _ => rfl]
    rfl
  cases route with
  | direct => exact ⟨told, rfl⟩
  | wire =>
    obtain ⟨untold, idle⟩ := s.uncalled_writeResponse number r
    simp only [respond, Turn.andThen]
    rw [List.filterMap_append, told, untold, idle]
    exact ⟨rfl, rfl⟩

theorem filterMap_dispatchLog {α : Type} (reads : Event → Option α)
    (unlogged : ∀ record, reads (.log record) = none) (s : Session) (payload : List UInt8)
    (level : Log.Level) (message method : String) (more : List (String × Log.Field)) (events : List Event) :
    (s.traceInbound method payload ++ [dispatchLog level message method more] ++ events).filterMap reads =
      events.filterMap reads := by
  have log : [dispatchLog level message method more].filterMap reads = [] :=
    List.filterMap_cons_none (unlogged _)
  rw [List.filterMap_append, List.filterMap_append, traceInbound, filterMap_wire reads unlogged, log]
  rfl

section Requests

variable {id : RequestId} {kind : ServerRequest}

theorem vacant_request (asked : x.id = some id) (known : ServerRequest.ofName? x.method = some kind)
    (vacant : s.requestHandler = none) :
    (s.dispatch x).events.filterMap Event.call? = [] ∧ (s.dispatch x).tasks = [] ∧
      (s.dispatch x).events.filterMap Event.response? =
        [⟨id, told (.error (.handlerUnavailable x.method))⟩] := by
  let e := ExchangeError.handlerUnavailable x.method
  have turn : s.dispatch x = (({ session := s.admitted, events := s.traceInbound x.method x.payload } : Turn).emit
      [dispatchLog .debug "no request handler registered" x.method [("id", .shown id.display)]]).andThen
        (·.reject s.received s.attachment x.route id e) := by
    simp only [dispatch, asked, handleRequest, known, vacant]
    rfl
  obtain ⟨untold, idle⟩ := s.admitted.uncalled_respond s.received s.attachment x.route (.failure id e.toRpc)
  simp only [turn, Turn.andThen, Turn.emit, reject, filterMap_dispatchLog Event.call? fun _ => rfl,
    filterMap_dispatchLog Event.response? fun _ => rfl, untold, idle, responses_respond]
  exact ⟨trivial, rfl, rfl⟩

/-- The params of a request are read by the schema of its method; without one nothing of them is kept. -/
theorem decode_request (kind : ServerRequest) (payload : List UInt8) :
    ServerRequest.Message.decode kind payload =
      (Payload.decode (kind.params?.getD .ignored) .required payload).map fun d =>
        ⟨kind, kind.params?.map fun _ => d⟩ := by
  unfold ServerRequest.Message.decode
  split <;> simp only [*, Option.getD_some, Option.getD_none] <;> rfl

theorem params_request (kind : ServerRequest) (d : Data) :
    ServerRequest.Message.params? ⟨kind, kind.params?.map fun _ => d⟩ = kind.params?.map (·.encode d) := by
  unfold ServerRequest.Message.params?
  cases kind.params? <;> rfl

theorem method_of_decode {payload : List UInt8} {message : ServerRequest.Message}
    (decoded : ServerRequest.Message.decode kind payload = .ok message) : message.method = kind := by
  rw [decode_request] at decoded
  obtain ⟨d, -, rfl⟩ := ok_of_map decoded
  rfl

theorem served_request (asked : x.id = some id) (known : ServerRequest.ofName? x.method = some kind)
    {handler : RequestHandler} (there : s.requestHandler = some handler) {message : ServerRequest.Message}
    (decoded : ServerRequest.Message.decode kind x.payload = .ok message) :
    let r : Responder := ⟨s.received, id, kind, x.route, s.attachment⟩
    (s.dispatch x).events.filterMap Event.call? =
        [handler.call kind.label kind.name message.params? (some id) r.inspect] ∧
      (s.dispatch x).tasks =
        handler.before.map .perform ++ [.answer r (message.params?.getD .null) handler.reply] ∧
      (s.dispatch x).events.filterMap Event.response? = [] := by
  intro r
  obtain rfl := method_of_decode decoded
  have turn : s.dispatch x = (({ session := s.admitted, events := s.traceInbound x.method x.payload } : Turn).emit
      [dispatchLog .debug "dispatching request" x.method [("id", .shown id.display)]]).andThen
        (·.callRequest handler message r) := by
    simp only [dispatch, asked, handleRequest, known, there, decoded]
    rfl
  simp only [turn, Turn.andThen, Turn.emit, filterMap_dispatchLog Event.call? fun _ => rfl,
    filterMap_dispatchLog Event.response? fun _ => rfl]
  exact ⟨rfl, rfl, rfl⟩

end Requests

section Notifications

variable {kind : ServerNotification}

theorem vacant_notification (sent : x.id = none) (known : ServerNotification.ofName? x.method = some kind)
    (vacant : s.notificationHandler = none) :
    (s.dispatch x).events.filterMap Event.call? = [] ∧ (s.dispatch x).tasks = [] ∧
      (s.dispatch x).events.filterMap Event.acknowledgement? = [.error (.handlerUnavailable x.method)] := by
  have turn : s.dispatch x = (({ session := s.admitted, events := s.traceInbound x.method x.payload } : Turn).emit
      [dispatchLog .debug "no notification handler registered" x.method []]).andThen
        (·.acknowledge s.received x.route x.method (.error (.handlerUnavailable x.method))) := by
    simp only [dispatch, sent, handleNotification, known, vacant]
  simp only [turn, Turn.andThen, Turn.emit, filterMap_dispatchLog Event.call? fun _ => rfl,
    filterMap_dispatchLog Event.acknowledgement? fun _ => rfl]
  cases x.route <;> exact ⟨rfl, rfl, rfl⟩

theorem served_notification (sent : x.id = none) (known : ServerNotification.ofName? x.method = some kind)
    {handler : NotificationHandler} (there : s.notificationHandler = some handler)
    {message : ServerNotification.Message}
    (decoded : ServerNotification.Message.decode kind x.payload (s.config.policyFor x.method) = .ok message) :
    let a : Acknowledger := ⟨s.received, kind, x.route⟩
    (s.dispatch x).events.filterMap Event.call? =
        [handler.call kind.label kind.name (some message.params) none a.inspect] ∧
      (s.dispatch x).tasks = handler.before.map .perform ++ [.acknowledge a handler.reply] ∧
      (s.dispatch x).events.filterMap Event.acknowledgement? = [] := by
  intro a
  obtain ⟨d, -, rfl⟩ := ok_of_map decoded
  have turn : s.dispatch x = (({ session := s.admitted, events := s.traceInbound x.method x.payload } : Turn).emit
      [dispatchLog .debug "dispatching notification" x.method []]).andThen
        (·.callNotification handler ⟨kind, d⟩ a) := by
    simp only [dispatch, sent, handleNotification, known, there, decoded]
    rfl
  simp only [turn, Turn.andThen, Turn.emit, filterMap_dispatchLog Event.call? fun _ => rfl,
    filterMap_dispatchLog Event.acknowledgement? fun _ => rfl]
  exact ⟨rfl, rfl, rfl⟩

end Notifications

end Dispatch

/-! What a reply comes to. -/

section Replies

variable {m : Moment}

theorem responses_answer (s : Session) (r : Responder) (echoed : Value) (reply : RequestReply) :
    (s.answer r echoed reply).events.filterMap Event.response? = (reply.response? r echoed).toList := by
  cases reply with
  | drop => exact s.responses_respond _ _ _ _
  | hold => rfl
  | echo => exact s.responses_answerWith r (.ok echoed)
  | respond outcome => exact s.responses_answerWith r outcome

theorem acknowledged_settleNotification (s : Session) (a : Acknowledger) (reply : NotificationReply) :
    (s.settleNotification a reply).events.filterMap Event.acknowledgement? = (reply.outcome? a).toList := by
  obtain ⟨number, method, route⟩ := a
  cases reply with
  | drop => cases route <;> rfl
  | hold => rfl
  | acknowledge outcome => cases route <;> cases outcome <;> rfl

theorem responses_replying {r : Responder} {echoed : Value} {reply : RequestReply}
    (replying : m.replying? = some (r, echoed, reply)) :
    m.turn.events.filterMap Event.response? = (reply.response? r echoed).toList := by
  obtain ⟨s, task, later⟩ := m
  unfold Moment.replying? at replying
  split at replying
  · rename_i asked
    obtain rfl : task = _ := asked
    cases replying
    exact s.responses_answer r echoed reply
  · rename_i asked
    obtain rfl : task = _ := asked
    cases replying
    exact s.responses_respond _ _ _ _
  · rename_i slot request notification peer asked
    obtain rfl : task = _ := asked
    split at replying
    · rename_i held
      have held : s.held.lookup slot = _ := held
      cases replying
      simp only [Moment.turn, step, perform, complete, held]
      exact responses_answer _ r .null reply
    · cases replying
  · cases replying

theorem acknowledged_acknowledging {a : Acknowledger} {reply : NotificationReply}
    (acknowledging : m.acknowledging? = some (a, reply)) :
    m.turn.events.filterMap Event.acknowledgement? = (reply.outcome? a).toList := by
  obtain ⟨s, task, later⟩ := m
  unfold Moment.acknowledging? at acknowledging
  split at acknowledging
  · rename_i asked
    obtain rfl : task = _ := asked
    cases acknowledging
    exact s.acknowledged_settleNotification a reply
  · rename_i asked
    obtain rfl : task = _ := asked
    cases acknowledging
    exact s.acknowledged_settleNotification a .drop
  · rename_i slot request notification peer asked
    obtain rfl : task = _ := asked
    split at acknowledging
    · rename_i held
      have held : s.held.lookup slot = _ := held
      cases acknowledging
      simp only [Moment.turn, step, perform, complete, held]
      exact acknowledged_settleNotification _ a reply
    · cases acknowledging
  · cases acknowledging

end Replies

/-! Courses. -/

/-- Tasks are done in their order, whatever else is done in between, or they are still to be done. -/
theorem done_in_order {first t : Session} {tasks rest : List Task} {ms : List Moment}
    (course : Course first tasks ms t rest) :
    ∃ done left front, tasks = done ++ left ∧ rest = front ++ left ∧ done.Sublist (ms.map Moment.task) := by
  induction course with
  | start => exact ⟨[], tasks, [], rfl, rfl, .slnil⟩
  | @step ms s task rest _ ih =>
    obtain ⟨done, left, front, rfl, agenda, sublist⟩ := ih
    rw [List.map_append]
    cases front with
    | nil =>
      obtain rfl : task :: rest = left := agenda
      exact ⟨done ++ [task], rest, _, by simp, rfl, sublist.append (.refl _)⟩
    | cons other front =>
      obtain ⟨rfl, rfl⟩ := List.cons_eq_cons.mp agenda
      exact ⟨done, left, _, rfl, (List.append_assoc _ _ _).symm, sublist.trans (List.sublist_append_left _ _)⟩
  | call op _ _ ih =>
    obtain ⟨done, left, front, rfl, rfl, sublist⟩ := ih
    exact ⟨done, left, .perform op :: front, rfl, rfl, sublist⟩
  | letGo _ _ ih =>
    obtain ⟨done, left, front, rfl, rfl, sublist⟩ := ih
    exact ⟨done, left, _, rfl, (List.append_assoc _ _ _).symm, sublist⟩

/-- Handlers take messages as they were set, and replies come to what they say. -/
structure Handled (ms : List Moment) (rest : List Task) : Prop where
  requests : ∀ before m after x id kind, ms = before ++ m :: after → m.incoming? = some x → x.id = some id →
    ServerRequest.ofName? x.method = some kind →
      (∀ handler message, Slot.requests.Latest before handler →
        ServerRequest.Message.decode kind x.payload = .ok message →
          let r : Responder := ⟨m.session.received, id, kind, x.route, m.session.attachment⟩
          Called m (handler.call kind.label kind.name message.params? (some id) r.inspect) handler.before
            (.answer r (message.params?.getD .null) handler.reply)) ∧
      ((∀ handler, ¬ Slot.requests.Latest before handler) →
        Uncalled m ∧
          m.turn.events.filterMap Event.response? = [⟨id, told (.error (.handlerUnavailable x.method))⟩])
  notifications : ∀ before m after x kind, ms = before ++ m :: after → m.incoming? = some x → x.id = none →
    ServerNotification.ofName? x.method = some kind →
      (∀ handler message, Slot.notifications.Latest before handler →
        ServerNotification.Message.decode kind x.payload (m.session.config.policyFor x.method) = .ok message →
          let a : Acknowledger := ⟨m.session.received, kind, x.route⟩
          Called m (handler.call kind.label kind.name (some message.params) none a.inspect) handler.before
            (.acknowledge a handler.reply)) ∧
      ((∀ handler, ¬ Slot.notifications.Latest before handler) →
        Uncalled m ∧ m.turn.events.filterMap Event.acknowledgement? = [.error (.handlerUnavailable x.method)])
  /-- What a step leaves to do is done in its order, whatever else is done in between. -/
  carried : ∀ before m after, ms = before ++ m :: after → ∃ done left front,
    m.turn.tasks ++ m.later = done ++ left ∧ rest = front ++ left ∧ done.Sublist (after.map Moment.task)
  answered : ∀ m ∈ ms, ∀ r echoed reply, m.replying? = some (r, echoed, reply) →
    m.turn.events.filterMap Event.response? = (reply.response? r echoed).toList
  acknowledged : ∀ m ∈ ms, ∀ a reply, m.acknowledging? = some (a, reply) →
    m.turn.events.filterMap Event.acknowledgement? = (reply.outcome? a).toList
  /-- With whatever handlers in the slots, a message is answered the same way. -/
  blind : ∀ m ∈ ms, m.task.answers = true → ∀ requests notifications,
    (m.session.withHandlers requests notifications).step m.task = m.turn.withHandlers requests notifications

section Course

variable {t : Session} {ms : List Moment} {rest : List Task} {config : Config} {transport : Transport}

theorem called_of_dispatch {m : Moment} {x : Incoming} (taken : m.incoming? = some x) {call : Call} {ops : List Op}
    {reply : Task} (told : (m.session.dispatch x).events.filterMap Event.call? = [call])
    (next : (m.session.dispatch x).tasks = ops.map .perform ++ [reply]) : Called m call ops reply := by
  obtain ⟨reads, tasks, serving⟩ := tasks_incoming taken
  refine ⟨(filterMap_incoming Event.call? (fun _ => rfl) taken).trans told, reads, ?_, serving⟩
  rw [tasks, next, List.append_assoc]
  rfl

theorem uncalled_of_dispatch {m : Moment} {x : Incoming} (taken : m.incoming? = some x)
    (untold : (m.session.dispatch x).events.filterMap Event.call? = [])
    (idle : (m.session.dispatch x).tasks = []) : Uncalled m := by
  obtain ⟨reads, tasks, serving⟩ := tasks_incoming taken
  refine ⟨(filterMap_incoming Event.call? (fun _ => rfl) taken).trans untold, ?_⟩
  rwa [tasks, idle, List.nil_append]

/-- A message is handled by the handler of its kind that was set last when it is dispatched, at
whatever depth of calls; nothing that is done to the slots afterwards changes that or how it is answered. -/
theorem handled_of_course (course : Course { config, transport } [] ms t rest) : Handled ms rest := by
  constructor
  · intro before m after x id kind split taken asked known
    have slot := Slot.requests.latest_of_course rfl (course.upTo split)
    have answers := filterMap_incoming Event.response? (fun _ => rfl) taken
    constructor
    · intro handler message latest decoded
      obtain ⟨told, next, -⟩ := served_request asked known ((slot handler).mpr latest) decoded
      exact called_of_dispatch taken told next
    · intro unset
      have vacant : m.session.requestHandler = none :=
        Option.eq_none_iff_forall_ne_some.mpr fun handler held => unset handler ((slot handler).mp held)
      obtain ⟨untold, idle, refused⟩ := vacant_request asked known vacant
      exact ⟨uncalled_of_dispatch taken untold idle, answers.trans refused⟩
  · intro before m after x kind split taken sent known
    have slot := Slot.notifications.latest_of_course rfl (course.upTo split)
    have answers := filterMap_incoming Event.acknowledgement? (fun _ => rfl) taken
    constructor
    · intro handler message latest decoded
      obtain ⟨told, next, -⟩ := served_notification sent known ((slot handler).mpr latest) decoded
      exact called_of_dispatch taken told next
    · intro unset
      have vacant : m.session.notificationHandler = none :=
        Option.eq_none_iff_forall_ne_some.mpr fun handler held => unset handler ((slot handler).mp held)
      obtain ⟨untold, idle, refused⟩ := vacant_notification sent known vacant
      exact ⟨uncalled_of_dispatch taken untold idle, answers.trans refused⟩
  · exact fun before m after split => done_in_order (course.behind split)
  · exact fun m _ r echoed reply => responses_replying
  · exact fun m _ a reply => acknowledged_acknowledging
  · exact fun m _ answers requests notifications => m.session.blind_step requests notifications answers

/-- A handler that clears its slot still answers the request it was called for; the next one is refused. -/
theorem handled_while_clearing :
    let handler : RequestHandler := ⟨none, false, [.clearRequestHandler], .echo⟩
    let method := "workspace/inlayHint/refresh"
    ∃ ms t, Course (overStream {}) [] ms t [] ∧ Handled ms [] ∧
      ms.map Moment.task = [.perform (.setRequestHandler handler),
        .perform (.request (.number 1) method [0x7b, 0x7d]), .perform .clearRequestHandler,
        .answer ⟨0, .number 1, .refreshInlayHints, .direct, 0⟩ .null .echo,
        .perform (.request (.number 2) method [0x7b, 0x7d])] ∧
      (seen ms).filterMap Event.response? =
        [⟨.number 1, told (.ok .null)⟩, ⟨.number 2, told (.error (.handlerUnavailable method))⟩] := by
  intro handler method
  have set : Course (overStream {}) [] _ _ [] := Course.start.execute 1 (.setRequestHandler handler)
  have first : Course (overStream {}) [] _ _ [] := set.execute 3 (.request (.number 1) method [0x7b, 0x7d])
  have second : Course (overStream {}) [] _ _ [] := first.execute 1 (.request (.number 2) method [0x7b, 0x7d])
  exact ⟨_, _, second, handled_of_course second, rfl, rfl⟩

end Course

end Session
end LanguageClient
