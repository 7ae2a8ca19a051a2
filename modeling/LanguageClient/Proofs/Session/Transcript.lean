import LanguageClient.Proofs.Session.Answer
import LanguageClient.Proofs.Session.Dispatch
import LanguageClient.Proofs.Session.Incoming
import LanguageClient.Proofs.Session.Reply
import LanguageClient.Proofs.Session.Sending

/-! The records of the wire, as a transcript of what passes.

While messages are traced, each that comes in is recorded before anything else comes of it, each
that goes out before the transport gets it, and each response right before it is delivered, with
the text that goes out. Nothing else stands in the records.
-/

set_option autoImplicit false
namespace LanguageClient

open Json (Value)
open Rpc (RequestId Response Outcome)

/-- What passes between a session and its peer. -/
inductive Passage where
  | inbound (method : String) (payload : List UInt8)
  | outbound (method : String) (params : Option Value)
  | answer (r : Response)

def Passage.record : Passage → Log.Record
  | .inbound method payload =>
      ⟨.info, .wire, "message",
        [("direction", .text "inbound"), ("method", .text method),
          ("payload", .shown (Text.Utf8.decodeLossy payload))]⟩
  | .outbound method params =>
      ⟨.info, .wire, "message",
        [("direction", .text "outbound"), ("method", .text method),
          ("params", .shown (Json.inspectOption params))]⟩
  | .answer r =>
      ⟨.info, .wire, "response",
        [("direction", .text "outbound"), ("id", .shown r.id.display), ("body", .text (.ofList r.write))]⟩

namespace Event

def record? : Event → Option Log.Record
  | .log record => if record.target = .wire then some record else none
  | _ => none

def mute : Event → Bool
  | .log record => record.target != .wire
  | .handled _ | @response _ _ | .sent _ _ _ | @written _ _ => false
  | _ => true

def departs : Event → Bool
  | .sent _ _ _ | @written (.request _ _) _ | @written (.notification _) _ => true
  | _ => false

def outward (event : Event) : Bool := event.departs || event.mute

end Event

namespace Moment

def typed? (m : Moment) : Option (String × Option Value) :=
  match m.task with
  | .perform (.sendRequest method params _ _) =>
      match ClientRequest.Message.build method params with
      | .ok message => some (method.name, message.params?)
      | .error _ => none
  | .perform (.sendNotification method params _) =>
      match ClientNotification.Message.build method params with
      | .ok message => some (method.name, message.params?)
      | .error _ => none
  | _ => none

/-- Whether a step gives a message to the transport past the client. -/
def bypasses (m : Moment) : Bool :=
  match m.task with
  | .perform (.rawRequest ..) | .perform (.rawNotification ..) => true
  | _ => false

def passages (m : Moment) : List Passage :=
  (m.incoming?.map fun x => Passage.inbound x.method x.payload).toList ++
    ((m.typed?.map fun x => Passage.outbound x.1 x.2).toList ++
      (m.turn.events.filterMap Event.response?).map .answer)

def Recorded (m : Moment) : Event → Prop
  | .handled _ => m.incoming?.isSome = true
  | .sent _ _ _ | @Event.written (.request _ _) _ | @Event.written (.notification _) _ =>
      m.typed?.isSome = true ∨ m.bypasses = true
  | @Event.written (.response number id) _ =>
      ∃ r : Response, r.id = id ∧ @Event.response number r ∈ m.turn.events
  | _ => True

end Moment

namespace Session

/-- Every attachment traces its messages. -/
def Traced (s : Session) : Prop := ∀ attachment, s.traces attachment = true

def records (events : List Event) : List Log.Record := events.filterMap Event.record?

/-- What follows a response that is given to whoever handed the request over: nothing, or the
stream gets the text of the response. -/
inductive Delivered (number : Nat) (r : Response) : Transport → Transport → List Event → Prop where
  | told {transport : Transport} : Delivered number r transport transport []
  | written {c : Connection} {failure : List Event} : failure.all Event.mute = true →
      Delivered number r (.connection c) (.connection (c.write (.response number r.id) r.write).1)
        ((c.write (.response number r.id) r.write).2.1 ++ failure)

inductive Replies (transport : Transport) (turn : Turn) : Prop where
  | silent : turn.events.all Event.mute = true → Replies transport turn
  | answer (lead : List Event) {tail : List Event} {number : Nat} {r : Response} : lead.all Event.mute = true →
      turn.events = lead ++ .log (Passage.answer r).record :: @Event.response number r :: tail →
      Delivered number r transport turn.session.transport tail → Replies transport turn

namespace Replies

variable {transport : Transport} {turn : Turn}

theorem after {s : Session} {events : List Event} {tasks : List Task} (mute : events.all Event.mute = true)
    (more : Session → Turn) (h : Replies transport (more s)) :
    Replies transport ((⟨s, events, tasks⟩ : Turn).andThen more) := by
  cases h with
  | silent quiet =>
    refine .silent ?_
    rw [Turn.andThen, List.all_append, mute, quiet]
    rfl
  | answer lead quiet same delivered =>
    refine .answer (events ++ lead) ?_ ?_ delivered
    · rw [List.all_append, mute, quiet]
      rfl
    · simp only [Turn.andThen, same, List.append_assoc]

end Replies

section Answers

variable {s : Session}

theorem mute_of_inert {events : List Event} (inert : events.all Event.inert = true) :
    events.all Event.mute = true := by
  refine List.all_eq_true.mpr fun event member => ?_
  have inert := List.all_eq_true.mp inert event member
  cases event with
  | log record => exact inert
  | handled _ | response _ | sent _ _ _ | written _ => cases inert
  | _ => rfl

theorem mute_notes (notes : List Frame.Note) : (notes.map noteEvent).all Event.mute = true :=
  mute_of_inert (inert_notes notes)

end Answers

/-! Messages that come in. -/

inductive Receives (transport : Transport) (record : Log.Record) (turn : Turn) : Prop where
  | called (lead : List Event) {call : Call} : lead.all Event.mute = true →
      turn.events = .log record :: (lead ++ [.handled call]) → Receives transport record turn
  | answered {rest : List Event} : turn.events = .log record :: rest →
      Replies transport { turn with events := rest } → Receives transport record turn

section Messages

variable {s : Session}

theorem Traced.now (traced : s.Traced) : s.tracing = true := by
  have last := traced s.formerTracing.length
  rwa [traces, List.getD_eq_getElem?_getD, List.getElem?_eq_none (Nat.le_refl _)] at last

end Messages

/-! Messages that go out. -/

section Sending

variable {s : Session}

theorem outward_of_mute {events : List Event} (mute : events.all Event.mute = true) :
    events.all Event.outward = true := by
  refine List.all_eq_true.mpr fun event member => ?_
  rw [Event.outward, List.all_eq_true.mp mute event member, Bool.or_true]

end Sending

/-! Steps. -/

inductive Account (m : Moment) : Prop where
  | takes {x : Incoming} (notes : List Frame.Note) {turn : Turn} : m.incoming? = some x →
      m.typed? = none → m.turn.events = notes.map noteEvent ++ turn.events →
      m.turn.session.transport = turn.session.transport →
      Receives m.session.transport (Passage.inbound x.method x.payload).record turn → Account m
  | sends {method : String} {params : Option Value} {rest : List Event} : m.incoming? = none →
      m.typed? = some (method, params) →
      m.turn.events = .log (Passage.outbound method params).record :: rest →
      rest.all Event.outward = true → Account m
  | bypasses : m.incoming? = none → m.typed? = none → m.bypasses = true →
      m.turn.events.all Event.outward = true → Account m
  | replies : m.incoming? = none → m.typed? = none → Replies m.session.transport m.turn → Account m

section Steps

variable {s : Session} {m : Moment}

end Steps

/-! What can be read off an account. -/

section Readings

/-- Neither records of the wire nor responses. -/
def Unread (events : List Event) : Prop := ∀ event ∈ events, event.record? = none ∧ event.response? = none

namespace Unread

variable {events : List Event}

theorem records_eq (h : Unread events) : records events = [] :=
  List.filterMap_eq_nil_iff.mpr fun event member => (h event member).1

theorem responses_eq (h : Unread events) : events.filterMap Event.response? = [] :=
  List.filterMap_eq_nil_iff.mpr fun event member => (h event member).2

end Unread

variable {transport : Transport} {turn : Turn} {m : Moment} {event : Event} {events : List Event}

theorem unread_of_outward (outward : events.all Event.outward = true) : Unread events := by
  intro event member
  have aside := List.all_eq_true.mp outward event member
  cases event with
  | log record => exact ⟨if_neg (by simpa [Event.outward, Event.departs, Event.mute] using aside), rfl⟩
  | response r => cases aside
  | _ => exact ⟨rfl, rfl⟩

theorem unread_of_mute (mute : events.all Event.mute = true) : Unread events :=
  unread_of_outward (outward_of_mute mute)

theorem records_append (events more : List Event) : records (events ++ more) = records events ++ records more :=
  List.filterMap_append

theorem records_record (p : Passage) (events : List Event) :
    records (.log p.record :: events) = p.record :: records events := by
  cases p <;> rfl

theorem recorded_of_mute (mute : event.mute = true) : m.Recorded event := by
  unfold Moment.Recorded
  split
  · cases mute
  · cases mute
  · cases mute
  · cases mute
  · cases mute
  · trivial

theorem recorded_of_outward (sent : m.typed?.isSome = true ∨ m.bypasses = true)
    (outward : event.outward = true) : m.Recorded event := by
  unfold Moment.Recorded
  split
  · cases outward
  · exact sent
  · exact sent
  · exact sent
  · cases outward
  · trivial

theorem split_once {α : Type} (kind : α → Bool) {before after front back : List α} {a b : α}
    (sooner : ∀ x ∈ before, kind x = false) (later : ∀ x ∈ after, kind x = false) (found : kind b = true)
    (same : before ++ a :: after = front ++ b :: back) : front = before ∧ b = a ∧ back = after := by
  -- If the two splits were apart, the second entry of the kind would lie in a part without any.
  rcases List.append_eq_append_iff.mp same with ⟨between, rfl, rest⟩ | ⟨between, rfl, rest⟩
  · cases between with
    | nil =>
      cases rest
      exact ⟨List.append_nil _, rfl, rfl⟩
    | cons x between =>
      obtain ⟨rfl, rfl⟩ := List.cons_eq_cons.mp rest
      rw [later b (by simp)] at found
      cases found
  · cases between with
    | nil =>
      cases rest
      exact ⟨(List.append_nil _).symm, rfl, rfl⟩
    | cons x between =>
      obtain ⟨rfl, rfl⟩ := List.cons_eq_cons.mp rest
      rw [sooner b (by simp)] at found
      cases found

theorem mem_delivered {number : Nat} {r : Response} {after : Transport}
    (h : Delivered number r transport after events) (member : event ∈ events) :
    event.mute = true ∨ ∃ bytes, event = @Event.written (.response number r.id) bytes := by
  cases h with
  | told => cases member
  | @written c failure quiet =>
    rcases List.mem_append.mp member with wrote | told
    · unfold Connection.write at wrote
      split at wrote
      · cases wrote
      · exact .inr ⟨_, List.mem_singleton.mp wrote⟩
    · exact .inl (List.all_eq_true.mp quiet event told)

theorem unread_of_delivered {number : Nat} {r : Response} {after : Transport}
    (h : Delivered number r transport after events) : Unread events := by
  intro event member
  rcases mem_delivered h member with quiet | ⟨bytes, rfl⟩
  · have single : [event].all Event.mute = true := by rw [List.all_cons, quiet]; rfl
    exact unread_of_mute single event (List.mem_singleton_self _)
  · exact ⟨rfl, rfl⟩

theorem unanswered_lead {lead : List Event} (quiet : lead.all Event.mute = true) (p : Passage) :
    ∀ event ∈ lead ++ [.log p.record], event.response?.isSome = false := by
  intro event member
  rcases List.mem_append.mp member with before | last
  · rw [(unread_of_mute quiet event before).2]
    rfl
  · obtain rfl := List.mem_singleton.mp last
    rfl

namespace Replies

theorem records_eq (h : Replies transport turn) :
    records turn.events = ((turn.events.filterMap Event.response?).map .answer).map Passage.record := by
  cases h with
  | silent quiet =>
    rw [(unread_of_mute quiet).records_eq, (unread_of_mute quiet).responses_eq]
    rfl
  | @answer lead tail number r quiet split delivered =>
    have told : records (@Event.response number r :: tail) = [] := (unread_of_delivered delivered).records_eq
    have answered : (@Event.response number r :: tail).filterMap Event.response? = [r] :=
      congrArg (r :: ·) (unread_of_delivered delivered).responses_eq
    rw [split, records_append, (unread_of_mute quiet).records_eq, records_record, told, List.filterMap_append,
      (unread_of_mute quiet).responses_eq, List.filterMap_cons_none rfl, answered]
    rfl

/-- A response stands right behind its record, and nothing follows it but its delivery. -/
theorem split (h : Replies transport turn) {number : Nat} {r : Response} {front back : List Event}
    (split : turn.events = front ++ @Event.response number r :: back) :
    (∃ earlier, front = earlier ++ [.log (Passage.answer r).record]) ∧
      Delivered number r transport turn.session.transport back := by
  cases h with
  | silent quiet =>
    have answered : (@Event.response number r).mute = true :=
      List.all_eq_true.mp quiet _ (by rw [split]; simp)
    cases answered
  | @answer lead tail other told quiet recorded delivered =>
    have whole : (lead ++ [.log (Passage.answer told).record]) ++ @Event.response other told :: tail =
        front ++ @Event.response number r :: back := by
      rw [← split, recorded, List.append_assoc]
      rfl
    have later : ∀ event ∈ tail, event.response?.isSome = false := fun event member => by
      rw [(unread_of_delivered delivered event member).2]
      rfl
    obtain ⟨rfl, same, rfl⟩ := split_once (fun event => event.response?.isSome)
      (unanswered_lead quiet _) later rfl whole
    cases same
    exact ⟨⟨lead, rfl⟩, delivered⟩

theorem recorded (h : Replies transport turn) (part : ∀ event ∈ turn.events, event ∈ m.turn.events) :
    ∀ event ∈ turn.events, m.Recorded event := by
  cases h with
  | silent quiet => exact fun event member => recorded_of_mute (List.all_eq_true.mp quiet event member)
  | @answer lead tail number r quiet split delivered =>
    have told : @Event.response number r ∈ m.turn.events := part _ (by rw [split]; simp)
    rw [split]
    intro event member
    rcases List.mem_append.mp member with before | member
    · exact recorded_of_mute (List.all_eq_true.mp quiet event before)
    rcases List.mem_cons.mp member with rfl | member
    · trivial
    rcases List.mem_cons.mp member with rfl | after
    · trivial
    rcases mem_delivered delivered after with mute | ⟨bytes, rfl⟩
    · exact recorded_of_mute mute
    · exact ⟨r, rfl, told⟩

end Replies

theorem split_after {lead rest front back : List Event} {number : Nat} {r : Response}
    (unanswered : ∀ event ∈ lead, event.response?.isSome = false)
    (split : lead ++ rest = front ++ @Event.response number r :: back) :
    ∃ between, front = lead ++ between ∧ rest = between ++ @Event.response number r :: back := by
  rcases List.append_eq_append_iff.mp split with ⟨between, rfl, rest⟩ | ⟨between, rfl, rest⟩
  · exact ⟨between, rfl, rest⟩
  · cases between with
    | nil => exact ⟨[], by simp, rest.symm⟩
    | cons x between =>
      obtain ⟨rfl, -⟩ := List.cons_eq_cons.mp rest
      cases unanswered _ (List.mem_append_right _ List.mem_cons_self)

namespace Account

theorem complete (h : Account m) : records m.turn.events = m.passages.map Passage.record := by
  unfold Moment.passages
  cases h with
  | @takes x notes turn taken idle events _ received =>
    have noted := unread_of_mute (mute_notes notes)
    rw [taken, idle, events, records_append, noted.records_eq, List.filterMap_append, noted.responses_eq]
    cases received with
    | @called lead call quiet split =>
      have handled : Unread (lead ++ [.handled call]) := by
        intro event member
        rcases List.mem_append.mp member with before | last
        · exact unread_of_mute quiet event before
        · obtain rfl := List.mem_singleton.mp last
          exact ⟨rfl, rfl⟩
      rw [split, records_record, handled.records_eq, List.filterMap_cons_none rfl, handled.responses_eq]
      rfl
    | @answered rest split replies =>
      rw [split, records_record, List.filterMap_cons_none rfl]
      exact congrArg (_ :: ·) replies.records_eq
  | @sends method params rest untaken sent events outward =>
    have departed := unread_of_outward outward
    rw [untaken, sent, events, records_record, departed.records_eq, List.filterMap_cons_none rfl,
      departed.responses_eq]
    rfl
  | bypasses untaken idle _ outward =>
    have departed := unread_of_outward outward
    rw [untaken, idle, departed.records_eq, departed.responses_eq]
    rfl
  | replies untaken idle replies =>
    rw [untaken, idle]
    exact replies.records_eq

theorem inbound (h : Account m) {x : Incoming} (taken : m.incoming? = some x) :
    ∃ notes rest, m.turn.events =
      List.map noteEvent notes ++ .log (Passage.inbound x.method x.payload).record :: rest := by
  cases h with
  | @takes y notes turn other idle events _ received =>
    obtain rfl : y = x := Option.some.inj (other.symm.trans taken)
    cases received with
    | called lead _ split => exact ⟨notes, _, by rw [events, split]⟩
    | answered split _ => exact ⟨notes, _, by rw [events, split]⟩
  | sends untaken | bypasses untaken | replies untaken => cases untaken.symm.trans taken

theorem outbound (h : Account m) {method : String} {params : Option Value}
    (sent : m.typed? = some (method, params)) :
    ∃ rest, m.turn.events = .log (Passage.outbound method params).record :: rest := by
  cases h with
  | sends _ same events =>
    cases same.symm.trans sent
    exact ⟨_, events⟩
  | takes notes taken idle | bypasses _ idle | replies _ idle => cases idle.symm.trans sent

theorem split (h : Account m) {number : Nat} {r : Response} {front back : List Event}
    (split : m.turn.events = front ++ @Event.response number r :: back) :
    (∃ earlier, front = earlier ++ [.log (Passage.answer r).record]) ∧
      Delivered number r m.session.transport m.turn.session.transport back := by
  have absent (unanswered : ∀ event ∈ m.turn.events, event.response? = none) : False := by
    cases unanswered _ (by rw [split]; exact List.mem_append_right _ List.mem_cons_self)
  cases h with
  | @takes x notes turn taken idle events transport received =>
    have noted := unanswered_lead (mute_notes notes) (.inbound x.method x.payload)
    cases received with
    | called lead quiet handed =>
      refine (absent ?_).elim
      simp only [events, handed, List.forall_mem_append, List.forall_mem_cons]
      exact ⟨fun event member => (unread_of_mute (mute_notes notes) event member).2, rfl,
        fun event member => (unread_of_mute quiet event member).2, rfl, List.forall_mem_nil _⟩
    | @answered rest recorded replies =>
      rw [events, recorded, ← List.singleton_append, ← List.append_assoc] at split
      obtain ⟨between, rfl, inner⟩ := split_after noted split
      obtain ⟨⟨earlier, rfl⟩, delivered⟩ := replies.split inner
      exact ⟨⟨_, (List.append_assoc _ _ _).symm⟩, transport ▸ delivered⟩
  | sends untaken sent events outward =>
    refine (absent ?_).elim
    simp only [events, List.forall_mem_cons]
    exact ⟨rfl, fun event member => (unread_of_outward outward event member).2⟩
  | bypasses untaken idle _ outward =>
    exact (absent fun event member => (unread_of_outward outward event member).2).elim
  | replies untaken idle replies => exact replies.split split

theorem recorded (h : Account m) : ∀ event ∈ m.turn.events, m.Recorded event := by
  have quietly {events : List Event} (mute : events.all Event.mute = true) :
      ∀ event ∈ events, m.Recorded event :=
    fun event member => recorded_of_mute (List.all_eq_true.mp mute event member)
  have departing {events : List Event} (sent : m.typed?.isSome = true ∨ m.bypasses = true)
      (outward : events.all Event.outward = true) : ∀ event ∈ events, m.Recorded event :=
    fun event member => recorded_of_outward sent (List.all_eq_true.mp outward event member)
  cases h with
  | @takes x notes turn taken idle events transport received =>
    have arrived : m.incoming?.isSome = true := by rw [taken]; rfl
    cases received with
    | called lead quiet handed =>
      simp only [events, handed, List.forall_mem_append, List.forall_mem_cons]
      exact ⟨quietly (mute_notes notes), trivial, quietly quiet, arrived, List.forall_mem_nil _⟩
    | @answered rest recorded replies =>
      have part : ∀ event ∈ rest, event ∈ m.turn.events := fun event member => by
        rw [events, recorded]
        exact List.mem_append_right _ (List.mem_cons_of_mem _ member)
      simp only [events, recorded, List.forall_mem_append, List.forall_mem_cons]
      exact ⟨quietly (mute_notes notes), trivial, replies.recorded part⟩
  | sends untaken sent events outward =>
    simp only [events, List.forall_mem_cons]
    exact ⟨trivial, departing (.inl (by rw [sent]; rfl)) outward⟩
  | bypasses untaken idle past outward => exact departing (.inr past) outward
  | replies untaken idle replies => exact replies.recorded fun _ member => member

end Account

end Readings

section Course

variable {t : Session} {before part after : List Moment} {rest : List Task} {config : Config}
  {transport : Transport}

end Course

end Session
end LanguageClient
