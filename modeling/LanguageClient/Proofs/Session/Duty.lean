import LanguageClient.Proofs.Frame.Writer
import LanguageClient.Proofs.Session.Reading

/-! What is owed to the peers of a session, and how it is settled.

A message that is taken in is owed a call, a frame, or both: a call of the one who handed
it over, a frame when it came off the stream and has an id. What is held by a handler or
still to be done carries the duty on. No step loses a duty or settles one twice.
-/

set_option autoImplicit false
namespace LanguageClient

open Json (Value)
open Rpc (RequestId Response Outcome)

/-- What is owed for the message taken in as number `number`; a notification has no id. -/
structure Duty where
  number : Nat
  id : Option RequestId
  called : Bool
  framed : Bool

def Responder.duty (r : Responder) : Duty := ⟨r.number, some r.id, true, r.route == .wire⟩

def Acknowledger.duty (a : Acknowledger) : Duty := ⟨a.number, none, true, false⟩

def Held.duty? : Held → Option Duty
  | .responder r => some r.duty
  | .acknowledger a => some a.duty
  | .completion _ => none

def Task.duty? : Task → Option Duty
  | .answer r _ _ => some r.duty
  | .acknowledge a _ => some a.duty
  | .release held => held.duty?
  | _ => none

/-- The two ways in which duties are settled. -/
inductive Book where
  | calls
  | frames

namespace Book

def settles? : Book → Event → Option (Nat × Option RequestId)
  | calls, @Event.response number r => some (number, some r.id)
  | calls, @Event.acknowledged number _ => some (number, none)
  | frames, @Event.written (.response number id) _ => some (number, some id)
  | _, _ => none

def owes? : Book → Duty → Option (Nat × Option RequestId)
  | calls, d => if d.called then some (d.number, d.id) else none
  | frames, d => if d.framed then some (d.number, d.id) else none

end Book

/-- What is written on the account of a message is the frame of a response with its id. -/
def Event.Framed : Event → Prop
  | @Event.written (.response _ id) bytes =>
      ∃ r : Response, r.id = id ∧ bytes = Frame.encode (Json.octets r.write)
  | _ => True

def Event.aside : Event → Bool
  | @Event.response _ _ | @Event.acknowledged _ _ | @Event.written (.response _ _) _ => false
  | _ => true

theorem settles?_of_aside {event : Event} (aside : event.aside = true) (book : Book) :
    book.settles? event = none := by
  unfold Book.settles?
  split
  · cases aside
  · cases aside
  · cases aside
  · rfl

theorem framed_of_aside {event : Event} (aside : event.aside = true) : event.Framed := by
  unfold Event.Framed
  split
  · cases aside
  · trivial

theorem unsettled_of_aside {events : List Event} (aside : events.all Event.aside = true)
    (book : Book) : events.filterMap book.settles? = [] :=
  List.filterMap_eq_nil_iff.mpr fun event member =>
    settles?_of_aside (List.all_eq_true.mp aside event member) book

namespace Session

def Generous (s : Session) : Prop :=
  ∃ c, s.transport = .connection c ∧ c.writer.sink.Generous

def Clear (s : Session) : Prop :=
  ∃ c, s.transport = .connection c ∧ c.writer.passed = []

def Fit (s : Session) : Book → Prop
  | .calls => True
  | .frames => s.Generous ∧ s.Clear

/-- The slots of what is held are different, and the next one is none of them. -/
structure Slotted (s : Session) : Prop where
  distinct : (s.held.map Prod.fst).Nodup
  below : ∀ entry ∈ s.held, entry.1 < s.nextSlot

def duties (held : List (Nat × Held)) : List Duty := held.filterMap fun entry => entry.2.duty?

/-- A turn settles what is owed, or passes it on; it takes in so many messages. -/
structure Settles (s : Session) (turn : Turn) (owed : List Duty) (taken : Nat) : Prop where
  balance : ∀ book : Book, s.Fit book →
    (turn.events.filterMap book.settles? ++
      (duties turn.session.held ++ turn.tasks.filterMap Task.duty?).filterMap book.owes?).Perm
      ((duties s.held ++ owed).filterMap book.owes?)
  framed : s.Fit .frames → (∀ event ∈ turn.events, event.Framed) ∧ turn.session.Fit .frames
  slots : s.Slotted → turn.session.Slotted
  received : turn.session.received = s.received + taken

namespace Settles

variable {s t : Session} {turn : Turn} {events : List Event} {tasks : List Task}
  {owed others : List Duty} {taken extra : Nat}

theorem passing (aside : events.all Event.aside = true) (passed : tasks.filterMap Task.duty? = owed)
    (kept : t.held = s.held) (slot : t.nextSlot = s.nextSlot) (fit : s.Fit .frames → t.Fit .frames)
    (received : t.received = s.received + taken) : Settles s ⟨t, events, tasks⟩ owed taken where
  balance := by
    intro book _
    simp [unsettled_of_aside aside, passed, kept]
  framed := fun ready =>
    ⟨fun event member => framed_of_aside (List.all_eq_true.mp aside event member), fit ready⟩
  slots := fun slotted => ⟨kept ▸ slotted.distinct, by rw [kept, slot]; exact slotted.below⟩
  received := received

theorem still (aside : events.all Event.aside = true) (idle : tasks.filterMap Task.duty? = []) :
    Settles s ⟨s, events, tasks⟩ [] 0 :=
  passing aside idle rfl rfl id rfl

theorem andThen (h : Settles s turn owed taken) (more : Session → Turn)
    (k : Settles turn.session (more turn.session) others extra) :
    Settles s (turn.andThen more) (owed ++ others) (taken + extra) where
  balance := by
    intro book fit
    have between : turn.session.Fit book := by
      cases book with
      | calls => trivial
      | frames => exact (h.framed fit).2
    have first := h.balance book fit
    have second := k.balance book between
    classical
    rw [List.perm_iff_count] at first second ⊢
    intro duty
    have first := first duty
    have second := second duty
    simp only [Turn.andThen, List.filterMap_append, List.count_append] at first second ⊢
    omega
  framed := by
    intro ready
    obtain ⟨first, between⟩ := h.framed ready
    obtain ⟨second, after⟩ := k.framed between
    refine ⟨fun event member => ?_, after⟩
    rcases List.mem_append.mp member with left | right
    · exact first event left
    · exact second event right
  slots := fun slotted => k.slots (h.slots slotted)
  received := by
    have first := h.received
    have second := k.received
    show (more turn.session).session.received = _
    omega

theorem emit (h : Settles s turn owed taken) (aside : events.all Event.aside = true) : Settles s (turn.emit events) owed taken where
  balance := by
    intro book fit
    simpa only [Turn.emit, List.filterMap_append, unsettled_of_aside aside, List.append_nil] using
      h.balance book fit
  framed := by
    intro ready
    obtain ⟨first, after⟩ := h.framed ready
    refine ⟨fun event member => ?_, after⟩
    rcases List.mem_append.mp member with left | right
    · exact first event left
    · exact framed_of_aside (List.all_eq_true.mp aside event right)
  slots := h.slots
  received := h.received

theorem owing (h : Settles s turn owed taken)
    (same : ∀ book : Book, owed.filterMap book.owes? = others.filterMap book.owes?) :
    Settles s turn others taken where
  balance := by
    intro book fit
    have counted : (duties s.held ++ owed).filterMap book.owes? =
        (duties s.held ++ others).filterMap book.owes? := by
      rw [List.filterMap_append, List.filterMap_append, same book]
    rw [← counted]
    exact h.balance book fit
  framed := h.framed
  slots := h.slots
  received := h.received

end Settles

section Answers

variable {s : Session}

theorem aside_trace (traced : Bool) (message : String) (fields : List (String × Log.Field)) :
    (wire traced message fields).all Event.aside = true := by
  cases traced <;> rfl

theorem frame_fit {w after : Frame.Writer} {body : List UInt8} {outcome : Except StreamError Unit}
    (generous : w.sink.Generous) (clear : w.passed = []) (framed : w.frame body = (after, outcome)) :
    outcome = .ok () ∧ after.collect.1 = Frame.encode body ∧ after.collect.2.sink.Generous ∧
      after.collect.2.passed = [] := by
  obtain ⟨went, generous⟩ := Frame.Writer.frame_generous generous body
  rw [framed] at went generous
  obtain rfl : outcome = .ok () := went
  obtain ⟨passed, empty⟩ := Frame.Writer.frame_ok framed
  refine ⟨rfl, ?_, ⟨generous.reactions, generous.failing⟩, ?_⟩
  · rw [clear, Frame.Writer.passed, empty] at passed
    simpa [Frame.Writer.collect] using passed
  · simpa [Frame.Writer.passed, Frame.Writer.collect] using empty

theorem held_writeResponse (s : Session) (number : Nat) (r : Response) :
    (s.writeResponse number r).session.held = s.held ∧
      (s.writeResponse number r).session.nextSlot = s.nextSlot ∧
      (s.writeResponse number r).session.received = s.received ∧
      (s.writeResponse number r).tasks = [] ∧
      (s.writeResponse number r).events.filterMap Book.calls.settles? = [] := by
  unfold writeResponse
  split
  · exact ⟨rfl, rfl, rfl, rfl, rfl⟩
  · refine ⟨rfl, rfl, rfl, rfl, ?_⟩
    rw [List.filterMap_append, filterMap_write Book.calls.settles? fun _ _ => rfl]
    split <;> rfl

theorem writeResponse_fit {c : Connection} (carrier : s.transport = .connection c)
    (generous : c.writer.sink.Generous) (clear : c.writer.passed = []) (number : Nat) (r : Response) :
    (s.writeResponse number r).session.Fit .frames ∧
      (s.writeResponse number r).events =
        [@Event.written (.response number r.id) (Frame.encode (Json.octets r.write))] := by
  rcases framed : c.writer.frame (Json.octets r.write) with ⟨after, outcome⟩
  obtain ⟨rfl, taken, generous, clear⟩ := frame_fit generous clear framed
  simp only [writeResponse, carrier, Connection.write, framed]
  refine ⟨⟨⟨_, rfl, generous⟩, ⟨_, rfl, clear⟩⟩, ?_⟩
  rw [← taken]
  rfl

theorem settles_writeResponse (s : Session) (number : Nat) (r : Response) :
    Settles s (s.writeResponse number r) [⟨number, some r.id, false, true⟩] 0 := by
  obtain ⟨held, slot, received, tasks, uncalled⟩ := held_writeResponse s number r
  constructor
  · intro book fit
    cases book with
    | calls =>
      rw [uncalled, tasks, held, List.filterMap_append]
      simp [Book.owes?]
    | frames =>
      obtain ⟨⟨c, carrier, generous⟩, ⟨d, same, clear⟩⟩ := fit
      obtain rfl : c = d := by simpa [carrier] using same
      rw [(writeResponse_fit carrier generous clear number r).2, tasks, held, List.filterMap_append]
      simpa [Book.settles?, Book.owes?] using List.perm_append_singleton _ _ |>.symm
  · rintro ⟨⟨c, carrier, generous⟩, ⟨d, same, clear⟩⟩
    obtain rfl : c = d := by simpa [carrier] using same
    obtain ⟨ready, events⟩ := writeResponse_fit carrier generous clear number r
    refine ⟨fun event member => ?_, ready⟩
    rw [events, List.mem_singleton] at member
    subst member
    exact ⟨r, rfl, rfl⟩
  · intro slotted
    exact ⟨held ▸ slotted.distinct, by rw [held, slot]; exact slotted.below⟩
  · exact received

theorem settles_called (s : Session) {events : List Event} {number : Nat} {id : Option RequestId}
    (calls : events.filterMap Book.calls.settles? = [(number, id)])
    (frames : events.filterMap Book.frames.settles? = [])
    (unframed : ∀ event ∈ events, event.Framed) :
    Settles s { session := s, events := events } [⟨number, id, true, false⟩] 0 where
  balance := by
    intro book _
    cases book with
    | calls => simpa [calls, Book.owes?] using List.perm_append_singleton _ _ |>.symm
    | frames => simp [frames, Book.owes?]
  framed := fun ready => ⟨unframed, ready⟩
  slots := fun slotted => slotted
  received := rfl

theorem settles_respond (s : Session) (number attachment : Nat) (route : Route) (r : Response) :
    Settles s (s.respond number attachment route r) [⟨number, some r.id, true, route == .wire⟩] 0 := by
  have told : Settles s
      { session := s, events := s.traceResponse attachment r ++ [@Event.response number r] }
      [⟨number, some r.id, true, false⟩] 0 := by
    have aside : (s.traceResponse attachment r).all Event.aside = true := aside_trace _ _ _
    refine s.settles_called ?_ ?_ ?_
    · rw [List.filterMap_append, unsettled_of_aside aside]
      rfl
    · rw [List.filterMap_append, unsettled_of_aside aside]
      rfl
    · intro event member
      rcases List.mem_append.mp member with left | right
      · exact framed_of_aside (List.all_eq_true.mp aside event left)
      · rw [List.mem_singleton.mp right]
        trivial
  cases route with
  | direct => exact told
  | wire =>
    -- The call and the frame are two entries of one duty, in one book each.
    have answered : Settles s (s.respond number attachment .wire r)
        ([⟨number, some r.id, true, false⟩] ++ [⟨number, some r.id, false, true⟩]) 0 :=
      told.andThen (·.writeResponse number r) (s.settles_writeResponse number r)
    refine answered.owing fun book => ?_
    cases book <;> rfl

theorem settles_reject (s : Session) (number attachment : Nat) (route : Route) (id : RequestId)
    (e : ExchangeError) :
    Settles s (s.reject number attachment route id e) [⟨number, some id, true, route == .wire⟩] 0 :=
  s.settles_respond number attachment route _

theorem settles_acknowledge (s : Session) (number : Nat) (route : Route) (method : String)
    (outcome : Except ExchangeError Unit) :
    Settles s (s.acknowledge number route method outcome) [⟨number, none, true, false⟩] 0 := by
  refine s.settles_called ?_ ?_ ?_ <;> cases route <;> cases outcome <;>
    simp [Book.settles?, logged, Event.Framed]

theorem Settles.logged {record : Log.Record} {owed : List Duty} (turn : Session → Turn)
    (h : Settles s (turn s) owed 0) :
    Settles s (({ session := s, events := [.log record] } : Turn).andThen turn) owed 0 := by
  have noted : Settles s { session := s, events := [.log record] } [] 0 :=
    .still rfl rfl
  exact noted.andThen turn h

theorem settles_answerWith (s : Session) (r : Responder) (outcome : Except ExchangeError Value) :
    Settles s (s.answerWith r outcome) [r.duty] 0 := by
  cases outcome with
  | ok v => exact s.settles_respond r.number r.attachment r.route (.success r.id v)
  | error e =>
    simp only [answerWith]
    exact .logged _ (s.settles_reject r.number r.attachment r.route r.id e)

theorem settles_dropResponder (s : Session) (r : Responder) :
    Settles s (s.dropResponder r) [r.duty] 0 :=
  .logged _ (s.settles_reject r.number r.attachment r.route r.id _)

theorem settles_dropAcknowledger (s : Session) (a : Acknowledger) :
    Settles s (s.dropAcknowledger a) [a.duty] 0 :=
  .logged _ (s.settles_acknowledge a.number a.route a.method.name _)

theorem settles_hold (s : Session) (h : Held) :
    Settles s { session := s.hold h } h.duty?.toList 0 where
  balance := by
    intro book _
    have added : duties (s.hold h).held = duties s.held ++ h.duty?.toList := by
      cases duty : h.duty? <;> simp [hold, duties, duty]
    rw [added]
    simp
  framed := fun ready => ⟨by simp, ready⟩
  slots := by
    intro slotted
    constructor
    · -- The new slot is above all the others.
      have distinct := slotted.distinct
      simp only [hold, List.map_append, List.map_cons, List.map_nil, List.nodup_append]
      refine ⟨distinct, by simp, ?_⟩
      intro slot taken new next
      obtain ⟨entry, member, rfl⟩ := List.mem_map.mp taken
      have below := slotted.below entry member
      have last : new = s.nextSlot := by simpa using next
      omega
    · intro entry member
      rcases List.mem_append.mp member with old | new
      · exact Nat.lt_succ_of_lt (slotted.below entry old)
      · rw [List.mem_singleton.mp new]
        exact Nat.lt_succ_self _
  received := rfl

theorem settles_answer (s : Session) (r : Responder) (echoed : Value) (reply : RequestReply) :
    Settles s (s.answer r echoed reply) [r.duty] 0 := by
  cases reply with
  | drop => exact s.settles_dropResponder r
  | hold => exact s.settles_hold (.responder r)
  | echo => exact s.settles_answerWith r (.ok echoed)
  | respond outcome => exact s.settles_answerWith r outcome

theorem settles_settleNotification (s : Session) (a : Acknowledger) (reply : NotificationReply) :
    Settles s (s.settleNotification a reply) [a.duty] 0 := by
  cases reply with
  | drop => exact s.settles_dropAcknowledger a
  | hold => exact s.settles_hold (.acknowledger a)
  | acknowledge outcome => exact s.settles_acknowledge a.number a.route a.method.name outcome

theorem settles_reportError (s : Session) (e : TransportError) : Settles s (s.reportError e) [] 0 :=
  .still rfl rfl

theorem settles_reportFrame (s : Session) (e : TransportError) : Settles s (s.reportFrame e) [] 0 := by
  unfold reportFrame
  split
  · exact s.settles_reportError e
  · exact .still rfl rfl

end Answers

end Session
end LanguageClient
