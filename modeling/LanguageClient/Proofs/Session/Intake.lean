import LanguageClient.Proofs.Session.Duty
import LanguageClient.Proofs.Session.Sending

/-! Each step of a session settles what is owed, or passes it on.

A step takes in at most one message: one handed over, or one read off the stream. A request
that comes before there is an attachment is owed a frame and nothing else; a notification
that comes so early is owed nothing.
-/

set_option autoImplicit false
namespace LanguageClient

open Json (Value)
open Rpc (RequestId Response Outcome)

namespace Session

section Messages

variable (s : Session)

theorem duty_performs (ops : List Op) (tasks : List Task) :
    (ops.map Task.perform ++ tasks).filterMap Task.duty? = tasks.filterMap Task.duty? := by
  have idle : (ops.map Task.perform).filterMap Task.duty? = [] := by
    refine List.filterMap_eq_nil_iff.mpr fun task member => ?_
    obtain ⟨op, -, rfl⟩ := List.mem_map.mp member
    rfl
  rw [List.filterMap_append, idle, List.nil_append]

theorem settles_callRequest (handler : RequestHandler) (m : ServerRequest.Message) (r : Responder) :
    Settles s (s.callRequest handler m r) [r.duty] 0 :=
  .passing rfl (duty_performs _ _) rfl rfl id rfl

theorem settles_callNotification (handler : NotificationHandler) (m : ServerNotification.Message)
    (a : Acknowledger) : Settles s (s.callNotification handler m a) [a.duty] 0 :=
  .passing rfl (duty_performs _ _) rfl rfl id rfl

theorem settles_admitted (method : String) (payload : List UInt8) :
    Settles s { session := s.admitted, events := s.traceInbound method payload } [] 1 :=
  .passing (aside_trace _ _ _) rfl rfl rfl id rfl

theorem settles_dispatched (method : String) (payload : List UInt8) (level : Log.Level)
    (message : String) (more : List (String × Log.Field)) {owed : List Duty}
    (turn : Session → Turn) (h : Settles s.admitted (turn s.admitted) owed 0) :
    Settles s ((({ session := s.admitted, events := s.traceInbound method payload } : Turn).emit
      [dispatchLog level message method more]).andThen turn) owed 1 := by
  have logged := (s.settles_admitted method payload).emit
    (show [dispatchLog level message method more].all Event.aside = true from rfl)
  exact logged.andThen turn h

theorem settles_handleRequest (route : Route) (id : RequestId) (method : String)
    (payload : List UInt8) : Settles s (s.handleRequest route id method payload)
      [⟨s.received, some id, true, route == .wire⟩] 1 := by
  have rejected (level : Log.Level) (message : String) (more : List (String × Log.Field))
      (e : ExchangeError) := s.settles_dispatched method payload level message more
    (·.reject s.received s.attachment route id e) (settles_reject _ _ _ _ _ _)
  unfold handleRequest
  split
  · exact rejected _ _ _ _
  · split
    · exact rejected _ _ _ _
    · split
      · exact rejected _ _ _ _
      · rename_i kind _ _ handler _ _ m _
        exact s.settles_dispatched method payload _ _ _
          (·.callRequest handler m ⟨s.received, id, kind, route, s.attachment⟩)
          (settles_callRequest _ _ _ _)

theorem settles_handleNotification (route : Route) (method : String) (payload : List UInt8) :
    Settles s (s.handleNotification route method payload) [⟨s.received, none, true, false⟩] 1 := by
  have rejected (level : Log.Level) (message : String) (more : List (String × Log.Field))
      (e : ExchangeError) := s.settles_dispatched method payload level message more
    (·.acknowledge s.received route method (.error e)) (settles_acknowledge _ _ _ _ _)
  unfold handleNotification
  split
  · exact rejected _ _ _ _
  · split
    · exact rejected _ _ _ _
    · split
      · exact rejected _ _ _ _
      · rename_i kind _ _ handler _ _ m _
        exact s.settles_dispatched method payload _ _ _
          (·.callNotification handler m ⟨s.received, kind, route⟩)
          (settles_callNotification _ _ _ _)

theorem settles_refuseEarly (id : RequestId) (method : String) :
    Settles s (s.refuseEarly id method) [⟨s.received, some id, false, true⟩] 1 := by
  have admitted : Settles s { session := s.admitted, events := [Session.logged .debug .transport
      "request arrived before attach" [("method", .text method), ("id", .shown id.display)]] } [] 1 :=
    .passing rfl rfl rfl rfl (fun fit => fit) rfl
  exact admitted.andThen (·.writeResponse s.received _) (settles_writeResponse _ _ _)

end Messages

/-! Messages off a stream. -/

def intake (s : Session) (body : List UInt8) : List Duty :=
  match Rpc.Message.ofBytes body with
  | .ok (.request id _) => [⟨s.received, some id, s.attached, true⟩]
  | .ok (.notification _) => if s.attached then [⟨s.received, none, true, false⟩] else []
  | _ => []

section Reading

variable (s : Session)

theorem fit_of_connection {c : Connection} (carrier : s.transport = .connection c) :
    s.Fit .frames ↔ c.writer.sink.Generous ∧ c.writer.passed = [] := by
  simp [Fit, Generous, Clear, carrier]

theorem fit_of_writer {t : Session} {c d : Connection} (carrier : s.transport = .connection c)
    (next : t.transport = .connection d) (same : d.writer = c.writer) :
    s.Fit .frames → t.Fit .frames := by
  rw [s.fit_of_connection carrier, t.fit_of_connection next, same]
  exact id

theorem settles_correlate (id : RequestId) (outcome : Outcome) :
    Settles s (s.correlate id outcome) [] 0 := by
  have unknown : Settles s { session := s, events := [Session.logged .warn .transport
      "response for unknown request" [("id", .shown id.display)]] } [] 0 :=
    .still rfl rfl
  unfold correlate
  cases carrier : s.transport with
  | scripted peer => exact unknown
  | connection c =>
    cases found : c.pending.lookup id with
    | none =>
      simp only [Connection.take?, found]
      exact unknown
    | some completion =>
      simp only [Connection.take?, found]
      exact .passing rfl rfl rfl rfl (s.fit_of_writer carrier rfl rfl) rfl

theorem settles_close : Settles s s.close [] 0 := by
  unfold close
  split
  · exact .still rfl rfl
  · rename_i c carrier
    refine .passing rfl ?_ rfl rfl (s.fit_of_writer carrier rfl rfl) rfl
    refine List.filterMap_eq_nil_iff.mpr fun task member => ?_
    obtain ⟨entry, -, rfl⟩ := List.mem_map.mp member
    rfl

theorem settles_stop (outcome : Except StreamError Unit) : Settles s (s.stop outcome) [] 0 := by
  have noted (record : Event) (aside : record.aside = true) :
      Settles s { session := s, events := [record] } [] 0 := by
    refine .still ?_ rfl
    rw [List.all_cons, aside]
    rfl
  have done (t : Session) : Settles t { session := t, tasks := [.stopped outcome] } [] 0 :=
    .still rfl rfl
  refine ((noted _ ?_).andThen close (settles_close _)).andThen
    (fun s => { session := s, tasks := [.stopped outcome] }) (done _)
  cases outcome <;> rfl

theorem settles_supply (phase : Frame.Phase) (input : List (Supply Op)) :
    Settles s (s.supply phase input) [] 0 := by
  have idle {tasks : List Task} (none : tasks.filterMap Task.duty? = []) :
      Settles s { session := s, tasks := tasks } [] 0 :=
    .still rfl none
  rcases input with _ | ⟨supplied, rest⟩
  · exact idle rfl
  · cases supplied with
    | bytes bytes => exact idle rfl
    | act op => exact idle rfl
    | failure fault =>
      by_cases interrupted : fault = .interrupted
      · rw [supply, if_pos interrupted]
        exact idle rfl
      · rw [supply, if_neg interrupted]
        exact s.settles_stop _

theorem settles_route (body : List UInt8) :
    Settles s (s.route body) (s.intake body) (s.intake body).length := by
  have logged (record : Log.Record) : Settles s { session := s, events := [.log record] } [] 0 :=
    .still rfl rfl
  rcases read : Rpc.Message.ofBytes body with e | ⟨⟨id, method⟩ | method | ⟨_ | id, outcome⟩⟩ <;>
    simp only [route, intake, read]
  · exact s.settles_reportFrame _
  · by_cases attached : s.attached = true
    · simpa [attached] using s.settles_handleRequest .wire id method body
    · simpa [attached] using s.settles_refuseEarly id method
  · by_cases attached : s.attached = true
    · simpa [attached] using s.settles_handleNotification .wire method body
    · simp only [attached]
      exact logged _
  · exact logged _
  · exact s.settles_correlate id outcome

theorem settles_noted (notes : List Frame.Note) : Settles s (s.noted notes) [] 0 := by
  refine .still ?_ rfl
  refine List.all_eq_true.mpr fun event member => ?_
  obtain ⟨note, -, rfl⟩ := List.mem_map.mp member
  cases note <;> rfl

theorem settles_readOn {tail : List Task}
    (reading : ∀ task ∈ tail, ∃ phase bytes input, task = .receive phase bytes input) :
    Settles s (readOn tail s) [] 0 := by
  refine .still rfl ?_
  refine List.filterMap_eq_nil_iff.mpr fun task member => ?_
  obtain ⟨phase, bytes, input, rfl⟩ := reading task member
  rfl

def taken (s : Session) : Frame.Arrival → List Duty
  | .frame body => s.intake body
  | _ => []

theorem settles_meet (arrival : Frame.Arrival) :
    Settles s (s.meet arrival) (s.taken arrival) (s.taken arrival).length := by
  cases arrival with
  | frame body => exact s.settles_route body
  | rejected e => exact s.settles_reportFrame e
  | failed e => exact s.settles_stop _
  | ended => exact s.settles_stop _
  | starved phase => exact .still rfl rfl

end Reading

theorem settles_receive {m : Moment} {phase : Frame.Phase} {bytes : List UInt8}
    {input : List (Supply Op)} (reading : m.task = .receive phase bytes input) :
    Settles m.session m.turn (m.arrival?.elim [] m.session.taken)
      (m.arrival?.elim [] m.session.taken).length := by
  cases arrived : m.arrival? with
  | some arrival =>
    obtain ⟨notes, turn⟩ := turn_of_arrival arrived
    have met := ((m.session.settles_noted notes).andThen (·.meet arrival)
      (m.session.settles_meet arrival)).andThen (readOn (m.resumed arrival))
        (settles_readOn _ fun _ => Moment.reads_of_resumed)
    rw [turn]
    simpa using met
  | none =>
    obtain ⟨notes, starving, -, turn, -⟩ := turn_of_none reading arrived
    rw [turn]
    exact (m.session.settles_noted notes).andThen (·.supply starving input)
      (m.session.settles_supply starving input)

/-! Sending settles nothing that is owed. -/

section Sending

variable {s : Session}

theorem fit_of_frame {t : Session} {c d : Connection} (carrier : s.transport = .connection c)
    (next : t.transport = .connection d) {body : List UInt8} {after : Frame.Writer}
    {outcome : Except StreamError Unit} (framed : c.writer.frame body = (after, outcome))
    (same : outcome = .ok () → d.writer = after.collect.2) : s.Fit .frames → t.Fit .frames := by
  rw [s.fit_of_connection carrier, t.fit_of_connection next]
  rintro ⟨generous, clear⟩
  obtain ⟨went, -, generous, clear⟩ := frame_fit generous clear framed
  rw [same went]
  exact ⟨generous, clear⟩

theorem settles_askScript {peer : ScriptedPeer} (carrier : s.transport = .scripted peer)
    (method : String) (params : Option Value) (completion : Completion) :
    Settles s (s.transmitRequest method params completion) [] 0 := by
  have unfit : s.Fit .frames → False := by
    rintro ⟨⟨c, connected, -⟩, -⟩
    cases carrier.symm.trans connected
  have quiet {t : Session} {tasks : List Task} (idle : tasks.filterMap Task.duty? = [])
      (kept : t.held = s.held) (slot : t.nextSlot = s.nextSlot) (same : t.received = s.received) :
      Settles s ⟨t, [.sent true method params], tasks⟩ [] 0 :=
    .passing rfl idle kept slot
      (fun fit => (unfit fit).elim) same
  cases replies : peer.replies with
  | nil =>
    simp only [transmitRequest, carrier, replies]
    exact quiet (by simp [Task.duty?]) rfl rfl rfl
  | cons reply rest =>
    have sent := @quiet { s with transport := .scripted { peer with replies := rest } } [] (by simp)
      rfl rfl rfl
    cases reply with
    | deliver outcome =>
      simp only [transmitRequest, carrier, replies]
      exact quiet (by simp [Task.duty?]) rfl rfl rfl
    | hold =>
      simp only [transmitRequest, carrier, replies]
      exact sent.andThen (fun s => { session := s.hold (.completion completion) })
        (settles_hold _ (.completion completion))

theorem settles_transmitRequest (s : Session) (method : String) (params : Option Value)
    (completion : Completion) : Settles s (s.transmitRequest method params completion) [] 0 := by
  cases carrier : s.transport with
  | scripted peer => exact settles_askScript carrier method params completion
  | connection c =>
    simp only [transmitRequest, carrier]
    cases closed : c.closed with
    | true =>
      exact .passing rfl (by simp [Task.duty?]) rfl
        rfl (s.fit_of_writer carrier rfl rfl) rfl
    | false =>
      rcases framed : c.writer.frame (Json.octets (Rpc.writeRequest (.number c.nextId.toInt) method params))
        with ⟨after, fault | _⟩
      · simp only [Connection.enter, Connection.write, framed, Connection.take?]
        cases List.lookup (RequestId.number c.nextId.toInt) _
        · exact .passing rfl rfl rfl rfl (fit_of_frame carrier rfl framed (by simp)) rfl
        · exact .passing rfl (by simp [Task.duty?]) rfl rfl
            (fit_of_frame carrier rfl framed (by simp)) rfl
      · simp only [Connection.enter, Connection.write, framed]
        exact .passing rfl rfl rfl rfl
          (fit_of_frame carrier rfl framed fun _ => rfl) rfl

theorem settles_transmitNotification (s : Session) (method : String) (params : Option Value) :
    Settles s ⟨(s.transmitNotification method params).1, (s.transmitNotification method params).2.1, []⟩
      [] 0 := by
  unfold transmitNotification
  cases carrier : s.transport with
  | scripted peer =>
    exact .still rfl rfl
  | connection c =>
    cases closed : c.closed with
    | true =>
      simp only [closed, if_true]
      exact .still rfl rfl
    | false =>
      rcases framed : c.writer.frame (Json.octets (Rpc.writeNotification method params))
        with ⟨after, fault | _⟩
      · simp only [Connection.write, framed, closed]
        exact .passing rfl rfl rfl rfl (fit_of_frame carrier rfl framed (by simp)) rfl
      · simp only [Connection.write, framed, closed]
        exact .passing rfl rfl rfl rfl
          (fit_of_frame carrier rfl framed fun _ => rfl) rfl

theorem settles_counted {events : List Event} (aside : events.all Event.aside = true) :
    Settles s ⟨s.counted, events, []⟩ [] 0 :=
  .passing aside rfl rfl rfl id rfl

theorem settles_requesting (s : Session) (records : List Log.Record) (method : String) (params : Option Value)
    (purpose : Purpose) (after : List Op) : Settles s (s.requesting records method params purpose after) [] 0 :=
  (settles_counted (all_records (fun _ => rfl) records)).andThen
    (fun s => s.transmitRequest method params ⟨s.sends, purpose, after⟩) (settles_transmitRequest _ _ _ _)

theorem settles_announcing (s : Session) (front back : List Log.Record) (method : String) (params : Option Value)
    (wrap : TransportError → Completed) (after : List Op) :
    Settles s (s.announcing front back method params wrap after) [] 0 := by
  have last (outcome : Completed) :
      (back.map Event.log ++ [Event.completed (s.sends + 1) outcome]).all Event.aside = true := by
    rw [List.all_append, all_records fun _ => rfl]
    rfl
  have told (t : Session) (outcome : Completed) :
      Settles t ⟨t, back.map Event.log ++ [Event.completed (s.sends + 1) outcome], after.map .perform⟩ [] 0 :=
    .still (last outcome) (by simpa using duty_performs after [])
  have sent := ((settles_counted (all_records (fun _ => rfl) front)).andThen
    (fun s => ⟨(s.transmitNotification method params).1, (s.transmitNotification method params).2.1, []⟩)
    (s.counted.settles_transmitNotification method params)).andThen
    (fun t => ⟨t, back.map Event.log ++ [Event.completed (s.sends + 1)
      (notified wrap (s.counted.transmitNotification method params).2.2)], after.map .perform⟩) (told _ _)
  simpa [Turn.andThen, announcing] using sent

theorem settles_sendRequest (s : Session) (method : ClientRequest) (params : Value) (result : Schema)
    (after : List Op) : Settles s (s.sendRequest method params result after) [] 0 := by
  cases built : ClientRequest.Message.build method params with
  | error cause =>
    simp only [sendRequest, built]
    exact .still rfl rfl
  | ok message =>
    obtain ⟨records, turn⟩ := s.sendRequest_built built result after
    rw [turn]
    exact s.settles_requesting records _ _ _ _

theorem settles_sendNotification (s : Session) (method : ClientNotification) (params : Value)
    (after : List Op) : Settles s (s.sendNotification method params after) [] 0 := by
  cases built : ClientNotification.Message.build method params with
  | error cause =>
    simp only [sendNotification, built]
    exact .still rfl rfl
  | ok message =>
    obtain ⟨front, back, turn⟩ := s.sendNotification_built built after
    rw [turn]
    exact s.settles_announcing front back _ _ _ _

theorem aside_settle (method : ClientRequest) (result : Schema)
    (outcome : Except TransportError Outcome) :
    (settle method result outcome).1.all Event.aside = true := by
  unfold settle
  repeat' split
  all_goals rfl

theorem settles_finish (s : Session) (c : Completion) (outcome : Except TransportError Outcome) :
    Settles s (s.finish c outcome) [] 0 := by
  refine .still ?_ (by simpa using duty_performs c.after [])
  rw [List.all_append, Bool.and_eq_true]
  refine ⟨?_, rfl⟩
  cases c.purpose with
  | typed method result => exact aside_settle method result outcome
  | raw => rfl

end Sending

/-! Completing what is held. -/

theorem duties_perm {held : List (Nat × Held)} (distinct : (held.map Prod.fst).Nodup) {slot : Nat}
    {h : Held} (found : held.lookup slot = some h) :
    (duties held).Perm (duties (held.filter fun entry => entry.1 != slot) ++ h.duty?.toList) := by
  induction held with
  | nil => cases found
  | cons first rest ih =>
    obtain ⟨key, other⟩ := first
    obtain ⟨apart, distinct⟩ := List.nodup_cons.mp distinct
    have split : duties ((key, other) :: rest) = other.duty?.toList ++ duties rest := by
      cases duty : other.duty? <;> simp [duties, duty]
    rw [split]
    by_cases same : slot = key
    · -- The slots are different, so nothing else goes with it.
      subst same
      have kept : rest.filter (fun entry => entry.1 != slot) = rest := by
        refine List.filter_eq_self.mpr fun entry member => ?_
        have listed : entry.1 ∈ rest.map Prod.fst := List.mem_map_of_mem member
        have differs : entry.1 ≠ slot := fun equal => apart (equal ▸ listed)
        simpa using differs
      have taken : other = h := by simpa using found
      rw [List.filter_cons_of_neg (by simp), kept, taken]
      exact List.perm_append_comm
    · have differs : (slot == key) = false := by simpa using same
      have found : rest.lookup slot = some h := by simpa [List.lookup_cons, differs] using found
      have kept : duties ((key, other) :: rest.filter fun entry => entry.1 != slot) =
          other.duty?.toList ++ duties (rest.filter fun entry => entry.1 != slot) := by
        cases duty : other.duty? <;> simp [duties, duty]
      rw [List.filter_cons_of_pos (by simpa using Ne.symm same), kept, List.append_assoc]
      exact (ih distinct found).append_left _

theorem settles_takenUp {s t : Session} {turn : Turn} {owed : List Duty} (h : Settles t turn owed 0)
    (perm : (duties s.held).Perm (duties t.held ++ owed)) (same : t.transport = s.transport)
    (slots : s.Slotted → t.Slotted) (received : t.received = s.received) : Settles s turn [] 0 where
  balance := by
    intro book fit
    have fit : t.Fit book := by
      cases book with
      | calls => trivial
      | frames => simpa [Fit, Generous, Clear, same] using fit
    rw [List.append_nil]
    exact (h.balance book fit).trans (perm.symm.filterMap _)
  framed := fun ready => h.framed (by simpa [Fit, Generous, Clear, same] using ready)
  slots := fun slotted => h.slots (slots slotted)
  received := h.received.trans (by rw [received])

theorem slotted_filter {s : Session} (slotted : s.Slotted) (keep : Nat × Held → Bool) :
    Slotted { s with held := s.held.filter keep } where
  distinct := slotted.distinct.sublist (List.filter_sublist.map _)
  below := fun entry member => slotted.below entry (List.mem_filter.mp member).1

theorem settles_complete {s : Session} (slotted : s.Slotted) (slot : Nat) (request : RequestReply)
    (notification : NotificationReply) (peer : PeerReply) :
    Settles s (s.complete slot request notification peer) [] 0 := by
  unfold complete
  split
  · exact .still rfl rfl
  · rename_i held found
    have perm := duties_perm slotted.distinct found
    have kept := fun slotted => slotted_filter (s := s) slotted fun entry => entry.1 != slot
    cases held with
    | responder r => exact settles_takenUp (settles_answer _ r .null request) perm rfl kept rfl
    | acknowledger a => exact settles_takenUp (settles_settleNotification _ a notification) perm rfl kept rfl
    | completion c =>
      cases peer with
      | hold => exact settles_takenUp (settles_hold _ (.completion c)) perm rfl kept rfl
      | deliver outcome =>
        have finishing (t : Session) : Settles t ⟨t, [], [.finish c outcome]⟩ [] 0 :=
          .still rfl rfl
        exact settles_takenUp (finishing _) perm rfl kept rfl

/-! Every step. -/

end Session

def Moment.admits (m : Moment) : List Duty :=
  match m.task with
  | .perform (.request id _ _) => [⟨m.session.received, some id, true, false⟩]
  | .perform (.notify _ _) => [⟨m.session.received, none, true, false⟩]
  | _ => m.arrival?.elim [] m.session.taken

def Op.resinks : Op → Bool
  | .setSink .. => true
  | _ => false

def Task.resinks : Task → Bool
  | .perform op => op.resinks
  | _ => false

namespace Session

theorem settles_updateScript (s : Session) (change : ScriptedPeer → ScriptedPeer) :
    Settles s { session := s.updateScript change } [] 0 := by
  unfold updateScript
  split
  · rename_i peer carrier
    refine .passing rfl rfl rfl rfl ?_ rfl
    rintro ⟨⟨c, connected, -⟩, -⟩
    cases carrier.symm.trans connected
  · exact .still rfl rfl

theorem settles_perform {s : Session} (slotted : s.Slotted) {op : Op} {later : List Task}
    (steady : op.resinks = false) :
    Settles s (s.perform op) (Moment.admits ⟨s, .perform op, later⟩)
      (Moment.admits ⟨s, .perform op, later⟩).length := by
  have quiet {t : Session} {events : List Event} {tasks : List Task}
      (aside : events.all Event.aside = true) (idle : tasks.filterMap Task.duty? = [])
      (kept : t.held = s.held) (slot : t.nextSlot = s.nextSlot) (same : t.transport = s.transport)
      (received : t.received = s.received) : Settles s ⟨t, events, tasks⟩ [] 0 :=
    .passing aside idle kept slot (by simp [Fit, Generous, Clear, same]) received
  cases op with
  | request id method payload => exact s.settles_handleRequest .direct id method payload
  | notify method payload => exact s.settles_handleNotification .direct method payload
  | reportError e => exact s.settles_reportError e
  | complete slot request notification peer => exact settles_complete slotted _ _ _ _
  | sendRequest method params result after => exact s.settles_sendRequest _ _ _ _
  | sendNotification method params after => exact s.settles_sendNotification _ _ _
  | rawRequest method params after =>
    rw [perform, sendRawRequest_eq]
    exact s.settles_requesting _ _ _ _ _
  | rawNotification method params after =>
    rw [perform, sendRawNotification_eq]
    exact s.settles_announcing _ _ _ _ _ _
  | setSink reactions failing => cases steady
  | script reply => exact s.settles_updateScript _
  | failNotifications e => exact s.settles_updateScript _
  | _ => exact quiet rfl rfl rfl rfl rfl rfl

/-- The step of a session settles what is owed for its task and the message it takes in. -/
theorem settles_step {m : Moment} (slotted : m.session.Slotted)
    (steady : ∀ op, m.task = .perform op → op.resinks = false) :
    Settles m.session m.turn (m.task.duty?.toList ++ m.admits) m.admits.length := by
  obtain ⟨s, task, later⟩ := m
  cases task with
  | perform op => exact settles_perform slotted (steady op rfl)
  | answer r echoed reply => exact s.settles_answer r echoed reply
  | acknowledge a reply => exact s.settles_settleNotification a reply
  | finish c outcome => exact s.settles_finish c outcome
  | receive phase bytes input => exact settles_receive (m := ⟨s, .receive phase bytes input, later⟩) rfl
  | stopped outcome => exact .still rfl rfl
  | release held =>
    cases held with
    | responder r => exact s.settles_dropResponder r
    | acknowledger a => exact s.settles_dropAcknowledger a
    | completion c => exact .still rfl rfl

end Session
end LanguageClient
