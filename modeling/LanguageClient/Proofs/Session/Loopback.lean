import LanguageClient.Proofs.Payload
import LanguageClient.Proofs.Session.Promptness
import LanguageClient.Proofs.Session.Sending
import Mathlib.Data.List.Basic

/-! What one session sends, another one takes in: every send once, in order, with its params. -/

set_option autoImplicit false
namespace LanguageClient

open Json (Value)
open Rpc (RequestId)

inductive Outgoing where
  | request (method : String) (params : Option Value)
  | notification (method : String) (params : Option Value)

namespace Outgoing

def params : Outgoing → Option Value
  | request _ params => params
  | notification _ params => params

/-- The id of the next request, after a message that was sent when it was `n`. -/
def next (n : Nat) : Outgoing → Nat
  | request .. => n + 1
  | notification .. => n

def body (n : Nat) : Outgoing → List UInt8
  | request method params => Json.octets (Rpc.writeRequest (.number n) method params)
  | notification method params => Json.octets (Rpc.writeNotification method params)

end Outgoing

inductive Delivery where
  | request (id : RequestId) (method : String) (payload : List UInt8)
  | notification (method : String) (payload : List UInt8)

namespace Delivery

def payload : Delivery → List UInt8
  | request _ _ payload => payload
  | notification _ payload => payload

def hand (s : Session) : Delivery → Turn
  | request id method payload => s.handleRequest .wire id method payload
  | notification method payload => s.handleNotification .wire method payload

end Delivery

def Delivery.ofBody? (body : List UInt8) : Option Delivery :=
  match Rpc.Message.ofBytes body with
  | .ok (.request id method) => some (.request id method body)
  | .ok (.notification method) => some (.notification method body)
  | _ => none

def Frame.Arrival.delivery? : Frame.Arrival → Option Delivery
  | .frame body => Delivery.ofBody? body
  | _ => none

def Outgoing.delivery (n : Nat) : Outgoing → Delivery
  | .request method params => .request (.number n) method (Outgoing.body n (.request method params))
  | .notification method params => .notification method (Outgoing.body n (.notification method params))

/-- Messages one after the other, each with the id that is next when it is sent. -/
def numbered {α : Type} (f : Nat → Outgoing → α) : Nat → List Outgoing → List α
  | _, [] => []
  | n, o :: rest => f n o :: numbered f (o.next n) rest

theorem numbered_append {α : Type} (f : Nat → Outgoing → α) (n : Nat) (first second : List Outgoing) :
    numbered f n (first ++ second) =
      numbered f n first ++ numbered f (first.foldl Outgoing.next n) second := by
  induction first generalizing n with
  | nil => rfl
  | cons o first ih => exact congrArg (f n o :: ·) (ih (o.next n))

def Event.octets : Event → List UInt8
  | .written bytes => bytes
  | _ => []

/-- The octets that reached the sink. -/
def wired (events : List Event) : List UInt8 := events.flatMap Event.octets

namespace Moment

/-- The message that is sent in a step. A typed one that cannot be built is not sent. -/
def outgoing? (m : Moment) : Option Outgoing :=
  match m.task with
  | .perform (.rawRequest method params _) => some (.request method params)
  | .perform (.rawNotification method params _) => some (.notification method params)
  | .perform (.sendRequest method params _ _) =>
      match ClientRequest.Message.build method params with
      | .ok message => some (.request method.name message.params?)
      | .error _ => none
  | .perform (.sendNotification method params _) =>
      match ClientNotification.Message.build method params with
      | .ok message => some (.notification method.name message.params?)
      | .error _ => none
  | _ => none

def delivery? (m : Moment) : Option Delivery :=
  if m.session.attached then m.arrival?.bind Frame.Arrival.delivery? else none

def sends (m : Moment) : Prop :=
  match m.task with
  | .perform (.rawRequest ..) | .perform (.rawNotification ..) | .perform (.sendRequest ..)
  | .perform (.sendNotification ..) => True
  | _ => False

end Moment

namespace Session

/-! Sending. -/

/-- An open connection over a sink that takes everything, with its next id. -/
structure Carrier (c : Connection) (n : Nat) : Prop where
  opened : c.closed = false
  generous : c.writer.sink.Generous
  clear : c.writer.passed = []
  next : c.nextId = Int64.ofNat n

def Ready (s : Session) (n : Nat) : Prop := ∃ c, s.transport = .connection c ∧ Carrier c n

/-- What sending makes of a session: the next id, and what reaches the sink. -/
structure Emits (turn : Turn) (n : Nat) (bytes : List UInt8) : Prop where
  ready : Ready turn.session n
  wired : wired turn.events = bytes

theorem wired_append (first second : List Event) : wired (first ++ second) = wired first ++ wired second :=
  List.flatMap_append

theorem Emits.after {t : Session} {n : Nat} {bytes : List UInt8} {events : List Event} {more : Session → Turn}
    (dry : LanguageClient.wired events = []) (h : Emits (more t) n bytes) :
    Emits (({ session := t, events := events } : Turn).andThen more) n bytes where
  ready := h.ready
  wired := by rw [Turn.andThen, wired_append, dry, h.wired, List.nil_append]

theorem wired_records (records : List Log.Record) : wired (records.map Event.log) = [] := by
  induction records with
  | nil => rfl
  | cons record records ih => exact ih

theorem write_carrier {c : Connection} {n : Nat} (carrier : Carrier c n) (subject : Subject) (text : List Char) :
    ∃ d, c.write subject text = (d, [@Event.written subject (Frame.encode (Json.octets text))], .ok ()) ∧
      Carrier d n ∧ d.pending = c.pending := by
  rcases framed : c.writer.frame (Json.octets text) with ⟨after, outcome⟩
  obtain ⟨rfl, taken, generous, clear⟩ := frame_fit carrier.generous carrier.clear framed
  simp only [Connection.write, framed, taken]
  exact ⟨_, rfl, ⟨carrier.opened, generous, clear, carrier.next⟩, rfl⟩

variable {s : Session} {n : Nat}

theorem emits_transmitRequest (ready : Ready s n) (few : n < 2 ^ 63) (method : String) (params : Option Value)
    (completion : Completion) : Emits (s.transmitRequest method params completion) (n + 1)
      (Frame.encode (Outgoing.body n (.request method params))) := by
  obtain ⟨⟨writer, pending, closed, next⟩, transport, ⟨rfl, generous, clear, counted⟩⟩ := ready
  dsimp only at counted
  have id : next.toInt = n := counted ▸ Int64.toInt_ofNat_of_lt few
  have advanced : next + 1 = Int64.ofNat (n + 1) := by
    rw [Int64.ofNat_add, ← counted]
    rfl
  have waiting : Carrier (Connection.enter ⟨writer, pending, false, next + 1⟩ (.number n) completion) (n + 1) :=
    ⟨rfl, generous, clear, advanced⟩
  obtain ⟨d, written, after, -⟩ := write_carrier waiting (.request completion.number (.number n))
    (Rpc.writeRequest (.number n) method params)
  simp only [transmitRequest, transport, id, Bool.false_eq_true, if_false, written]
  exact ⟨⟨d, rfl, after⟩, List.append_nil _⟩

theorem emits_transmitNotification (ready : Ready s n) (method : String) (params : Option Value) :
    ∃ t events, s.transmitNotification method params = (t, events, .ok ()) ∧ Ready t n ∧
      wired events = Frame.encode (Outgoing.body n (.notification method params)) := by
  obtain ⟨c, transport, carrier⟩ := ready
  obtain ⟨d, written, after, -⟩ := write_carrier carrier (.notification s.sends)
    (Rpc.writeNotification method params)
  simp only [transmitNotification, transport, carrier.opened, Bool.false_eq_true, if_false, written]
  exact ⟨_, _, rfl, ⟨d, rfl, after⟩, List.append_nil _⟩

theorem emits_requesting (ready : Ready s n) (few : n < 2 ^ 63) (records : List Log.Record) (method : String)
    (params : Option Value) (purpose : Purpose) (after : List Op) :
    Emits (s.requesting records method params purpose after) (n + 1)
      (Frame.encode (Outgoing.body n (.request method params))) := by
  have counted : Ready s.counted n := ready
  exact Emits.after (wired_records records) (emits_transmitRequest counted few method params _)

theorem emits_announcing (ready : Ready s n) (front back : List Log.Record) (method : String)
    (params : Option Value) (wrap : TransportError → Completed) (after : List Op) :
    Emits (s.announcing front back method params wrap after) n
      (Frame.encode (Outgoing.body n (.notification method params))) := by
  have counted : Ready s.counted n := ready
  obtain ⟨t, events, passed, ready, bytes⟩ := emits_transmitNotification counted method params
  simp only [announcing, passed]
  refine ⟨ready, ?_⟩
  simp only [wired_append, wired_records, bytes, List.nil_append]
  exact (List.append_nil _).trans (List.append_nil _)

theorem emits_of_outgoing {m : Moment} {o : Outgoing} (sent : m.outgoing? = some o)
    (ready : Ready m.session n) (few : o.next n ≤ 2 ^ 63) : Emits m.turn (o.next n) (Frame.encode (o.body n)) := by
  obtain ⟨s, task, later⟩ := m
  unfold Moment.outgoing? at sent
  split at sent
  · rename_i method params after same
    subst same
    obtain rfl := Option.some.inj sent
    simp only [Moment.turn, step, perform, sendRawRequest_eq]
    exact emits_requesting ready few [] method params .raw after
  · rename_i method params after same
    subst same
    obtain rfl := Option.some.inj sent
    simp only [Moment.turn, step, perform, sendRawNotification_eq]
    exact emits_announcing ready [] [] method params .broken after
  · rename_i method params result after same
    subst same
    split at sent
    · rename_i message built
      obtain rfl := Option.some.inj sent
      obtain ⟨records, turn⟩ := s.sendRequest_built built result after
      simp only [Moment.turn, step, perform, turn]
      exact emits_requesting ready few records _ _ _ _
    · cases sent
  · rename_i method params after same
    subst same
    split at sent
    · rename_i message built
      obtain rfl := Option.some.inj sent
      obtain ⟨front, back, turn⟩ := s.sendNotification_built built after
      simp only [Moment.turn, step, perform, turn]
      exact emits_announcing ready front back _ _ _ _
    · cases sent
  · cases sent

theorem emits_of_rejected {m : Moment} (sends : m.sends) (unsent : m.outgoing? = none)
    (ready : Ready m.session n) : Emits m.turn n [] := by
  obtain ⟨s, task, later⟩ := m
  unfold Moment.outgoing? at unsent
  split at unsent
  · cases unsent
  · cases unsent
  · rename_i method params result after same
    subst same
    split at unsent
    · cases unsent
    · rename_i cause built
      simp only [Moment.turn, step, perform, sendRequest, built]
      exact ⟨ready, rfl⟩
  · rename_i method params after same
    subst same
    split at unsent
    · cases unsent
    · rename_i cause built
      simp only [Moment.turn, step, perform, sendNotification, built]
      exact ⟨ready, rfl⟩
  · -- Whatever is left is no send.
    rename_i raw rawToo typed typedToo
    unfold Moment.sends at sends
    split at sends
    all_goals simp_all

theorem le_next (n : Nat) (sent : List Outgoing) : n ≤ sent.foldl Outgoing.next n := by
  induction sent generalizing n with
  | nil => exact Nat.le_refl n
  | cons o sent ih =>
    have step : n ≤ o.next n := by cases o <;> simp [Outgoing.next]
    exact step.trans (ih _)

theorem ready_of_course {t : Session} {tasks agenda : List Task} {ms : List Moment} (ready : Ready s n)
    (course : Course s tasks ms t agenda) (sends : ∀ m ∈ ms, m.sends)
    (few : (ms.filterMap Moment.outgoing?).foldl Outgoing.next n ≤ 2 ^ 63) :
    Ready t ((ms.filterMap Moment.outgoing?).foldl Outgoing.next n) ∧
      wired (seen ms) =
        (numbered (fun n o => o.body n) n (ms.filterMap Moment.outgoing?)).flatMap Frame.encode := by
  induction course with
  | start => exact ⟨ready, rfl⟩
  | @step ms s task rest _ ih =>
    rw [List.filterMap_append, List.foldl_append] at few
    obtain ⟨ready, bytes⟩ := ih (fun m member => sends m (List.mem_append_left _ member)) ((le_next _ _).trans few)
    have last : Moment.sends ⟨s, task, rest⟩ := sends _ (by simp)
    rw [seen_append, seen_singleton, wired_append, bytes, List.filterMap_append]
    cases sent : Moment.outgoing? ⟨s, task, rest⟩ with
    | some o =>
      rw [List.filterMap_cons_some sent] at few
      have emits := emits_of_outgoing sent ready few
      rw [List.filterMap_cons_some sent, List.filterMap_nil, List.foldl_append, numbered_append,
        List.flatMap_append, emits.wired]
      exact ⟨emits.ready, by simp [numbered]⟩
    | none =>
      have emits := emits_of_rejected last sent ready
      rw [List.filterMap_cons_none sent, List.filterMap_nil, List.append_nil, emits.wired, List.append_nil]
      exact ⟨emits.ready, rfl⟩
  | call op _ _ ih => exact ih sends few
  | letGo _ _ ih => exact ih sends few

/-! Taking in. -/

theorem turn_of_delivery {m : Moment} {d : Delivery} (delivered : m.delivery? = some d) :
    m.arrival? = some (.frame d.payload) ∧ ∃ notes, m.turn =
      ((m.session.noted notes).andThen (d.hand ·)).andThen (readOn (m.resumed (.frame d.payload))) := by
  unfold Moment.delivery? at delivered
  split at delivered
  · rename_i attached
    obtain ⟨arrival, arrived, found⟩ := Option.bind_eq_some_iff.mp delivered
    obtain ⟨notes, turn⟩ := turn_of_arrival arrived
    cases arrival with
    | frame body =>
      have routed : (m.session.noted notes).andThen (·.meet (.frame body)) =
          (m.session.noted notes).andThen (d.hand ·) ∧ d.payload = body := by
        simp only [Frame.Arrival.delivery?, Delivery.ofBody?] at found
        have still : (m.session.noted notes).session.attached = true := attached
        split at found
        · rename_i id method classified
          obtain rfl := Option.some.inj found
          simp only [Turn.andThen, meet, route, classified, still, if_true, Delivery.hand]
          exact ⟨trivial, rfl⟩
        · rename_i method classified
          obtain rfl := Option.some.inj found
          simp only [Turn.andThen, meet, route, classified, still, if_true, Delivery.hand]
          exact ⟨trivial, rfl⟩
        · cases found
      obtain ⟨same, rfl⟩ := routed
      exact ⟨arrived, notes, same ▸ turn⟩
    | _ => cases found
  · cases delivered

theorem untroubled_hand (d : Delivery) (s : Session) : Untroubled s (d.hand s) := by
  cases d with
  | request id method payload => exact s.untroubled_handleRequest _ _ _ _
  | notification method payload => exact s.untroubled_handleNotification _ _ _

theorem untroubled_noted (s : Session) (notes : List Frame.Note) : Untroubled s (s.noted notes) :=
  .still rfl (filterMap_notes Event.report? (fun _ => rfl) notes)

theorem untroubled_of_delivery {m : Moment} {d : Delivery} (delivered : m.delivery? = some d) :
    Untroubled m.session m.turn := by
  obtain ⟨-, notes, turn⟩ := turn_of_delivery delivered
  rw [turn]
  exact ((untroubled_noted _ _).andThen (untroubled_hand d _)).andThen (.still rfl rfl)

theorem untroubled_of_ended {m : Moment} (arrived : m.arrival? = some .ended) :
    Untroubled m.session m.turn := by
  obtain ⟨notes, turn⟩ := turn_of_arrival arrived
  rw [turn]
  exact ((untroubled_noted _ _).andThen (untroubled_stop _ (.ok ()))).andThen (.still rfl rfl)

theorem untroubled_of_none {m : Moment} {phase : Frame.Phase} {bytes : List UInt8} {input : List (Supply Op)}
    (reading : m.task = .receive phase bytes input) (none : m.arrival? = none) :
    Untroubled m.session m.turn := by
  obtain ⟨notes, starving, -, turn, -⟩ := turn_of_none reading none
  rw [turn]
  exact (untroubled_noted _ _).andThen (untroubled_supply _ _ _)

section Course

variable {expected : List Frame.Arrival} {s t : Session} {rest agenda : List Task} {ms : List Moment}
  {input : List (Supply Op)}

theorem stands_of_own (smooth : Smooth input) (delivers : Frame.Delivers .start (octets input) expected)
    (course : Course s (.perform (.serve input) :: rest) ms t agenda)
    (unreturned : Unreturned rest.length ms) {m : Moment} (member : m ∈ own rest.length ms) :
    ∃ met left budget, Stands met m.task left budget := by
  obtain ⟨listed, level⟩ := List.mem_filter.mp member
  obtain ⟨before, after, split⟩ := List.append_of_mem listed
  have earlier : Unreturned rest.length before := fun m member =>
    unreturned m (split ▸ List.mem_append_left _ member)
  obtain ⟨front, task, left, budget, agenda, stands, -⟩ :=
    standing_of_course smooth delivers (course.upTo split) earlier
  cases front with
  | nil =>
    obtain ⟨same, -⟩ := List.cons.inj agenda
    exact ⟨_, left, budget, same ▸ stands⟩
  | cons first front =>
    -- A task in front of the call's own has more tasks behind it than the call.
    have behind : m.later = front ++ task :: rest := (List.cons.inj agenda).2
    rw [behind, List.length_append, List.length_cons, beq_iff_eq] at level
    omega

theorem unreported_of_stands {m : Moment} {met left : List Frame.Arrival} {budget : Nat}
    (stands : Stands met m.task left budget) (none : m.arrival? = none) :
    m.turn.events.filterMap Event.report? = [] := by
  obtain ⟨session, task, later⟩ := m
  cases stands with
  | called => rfl
  | reading => exact (untroubled_of_none rfl none).unreported
  | ended => rfl

/-- What a call has made so far of a stream of messages for whoever is attached. -/
structure Looped (expected : List Delivery) (rest : List Task) (ms : List Moment) (agenda : List Task) :
    Prop where
  /-- What arrives is handed over in the same step, until the stream is over. -/
  handed : ∀ m ∈ own rest.length ms, ∀ arrival, m.arrival? = some arrival → arrival ≠ .ended →
    ∃ d notes, m.delivery? = some d ∧ arrival = .frame d.payload ∧
      m.turn = ((m.session.noted notes).andThen (d.hand ·)).andThen (readOn (m.resumed arrival))
  delivered : (own rest.length ms).filterMap Moment.delivery? <+: expected
  unreported : ∀ m ∈ own rest.length ms, m.turn.events.filterMap Event.report? = []
  returned : ∀ outcome later, agenda = .stopped outcome :: later → later.length = rest.length →
    outcome = .ok () ∧ (own rest.length ms).filterMap Moment.delivery? = expected

theorem deliveries_eq (depth : Nat) {ms : List Moment} (attached : ∀ m ∈ ms, m.session.attached = true) :
    (own depth ms).filterMap Moment.delivery? =
      (arrivals depth ms).filterMap Frame.Arrival.delivery? := by
  rw [arrivals, List.filterMap_filterMap]
  refine List.filterMap_congr fun m member => ?_
  have there : m.session.attached = true := attached m (List.mem_of_mem_filter member)
  rw [Moment.delivery?, if_pos there]

def framed (expected : List Delivery) : List Frame.Arrival :=
  expected.map (fun d => .frame d.payload) ++ [.ended]

theorem deliveries_framed {expected : List Delivery}
    (classified : ∀ d ∈ expected, Delivery.ofBody? d.payload = some d) :
    (framed expected).filterMap Frame.Arrival.delivery? = expected := by
  rw [framed, List.filterMap_append, List.filterMap_map]
  have found : expected.filterMap (fun d => Delivery.ofBody? d.payload) = expected :=
    (List.filterMap_congr classified).trans List.filterMap_some
  exact (List.append_nil _).trans found

theorem looped_of_course {expected : List Delivery} (smooth : Smooth input) (attached : s.attached = true)
    (delivers : Frame.Delivers .start (octets input) (framed expected))
    (classified : ∀ d ∈ expected, Delivery.ofBody? d.payload = some d)
    (course : Course s (.perform (.serve input) :: rest) ms t agenda)
    (unreturned : Unreturned rest.length ms) : Looped expected rest ms agenda := by
  have standing := standing_of_course smooth delivers course unreturned
  have there := (attached_of_course attached course).2
  obtain ⟨front, task, left, budget, split, stands, met, -⟩ := id standing
  have first : arrivals rest.length ms <+: framed expected := ⟨left, met⟩
  have whole := deliveries_framed classified
  have arrives (m : Moment) (member : m ∈ own rest.length ms) (arrival : Frame.Arrival)
      (arrived : m.arrival? = some arrival) :
      arrival = .ended ∨ ∃ d, m.delivery? = some d ∧ arrival = .frame d.payload := by
    have listed : arrival ∈ arrivals rest.length ms := List.mem_filterMap.mpr ⟨m, member, arrived⟩
    rcases List.mem_append.mp (first.subset listed) with frame | last
    · obtain ⟨d, among, rfl⟩ := List.mem_map.mp frame
      refine .inr ⟨d, ?_, rfl⟩
      rw [Moment.delivery?, if_pos (there m (List.mem_of_mem_filter member)), arrived]
      exact classified d among
    · exact .inl (List.mem_singleton.mp last)
  constructor
  · intro m member arrival arrived going
    obtain ended | ⟨d, delivered, rfl⟩ := arrives m member arrival arrived
    · exact absurd ended going
    · obtain ⟨-, notes, turn⟩ := turn_of_delivery delivered
      exact ⟨d, notes, delivered, rfl, turn⟩
  · rw [deliveries_eq rest.length there, ← whole]
    exact first.filterMap _
  · intro m member
    obtain ⟨_, _, _, stands⟩ := stands_of_own smooth delivers course unreturned member
    cases arrived : m.arrival? with
    | some arrival =>
      obtain rfl | ⟨d, delivered, -⟩ := arrives m member arrival arrived
      · exact (untroubled_of_ended arrived).unreported
      · exact (untroubled_of_delivery delivered).unreported
    | none => exact unreported_of_stands stands arrived
  · rintro outcome later rfl level
    obtain ⟨everything, last⟩ := standing.ended level
    rw [framed, List.getLast?_concat] at last
    rw [deliveries_eq rest.length there, everything, whole]
    exact ⟨closing_ended (Option.some.inj last).symm, rfl⟩

theorem loops_of_recurs {expected : List Delivery} (smooth : Smooth input) (attached : s.attached = true)
    (delivers : Frame.Delivers .start (octets input) (framed expected))
    (classified : ∀ d ∈ expected, Delivery.ofBody? d.payload = some d)
    (recurs : Recurs s [.perform (.serve input)]) :
    ∃ k, (s.execute k (.serve input)).tasks = [] ∧
      (s.execute k (.serve input)).events.getLast? = some (.served (.ok ())) ∧
        (own 0 (trail k s [.perform (.serve input)])).filterMap Moment.delivery? = expected := by
  obtain ⟨k, outcome, stopped, unreturned⟩ := stops_of_recurs smooth delivers recurs
  obtain ⟨trailed, -, left⟩ := run_succ stopped
  have looped := looped_of_course smooth attached delivers classified (Course.of_run k s _) unreturned
  obtain ⟨rfl, everything⟩ := looped.returned outcome [] stopped rfl
  refine ⟨k + 1, left, ?_, ?_⟩
  · rw [execute, ← seen_trail, trailed, seen_append, seen_singleton]
    exact List.getLast?_concat
  · -- The last step of the call returns, and hands nothing over.
    have silent : Moment.delivery? ⟨(s.run k [.perform (.serve input)]).session, .stopped (.ok ()), []⟩ =
        none := by
      unfold Moment.delivery?
      split <;> rfl
    have level : (Moment.mk (s.run k [.perform (.serve input)]).session (.stopped (.ok ())) []).later.length =
        0 := rfl
    rw [trailed, own_concat level, List.filterMap_append, List.filterMap_cons_none silent,
      List.filterMap_nil, List.append_nil]
    exact everything

end Course

/-! There and back. -/

def bodies (n : Nat) (sent : List Outgoing) : List (List UInt8) := numbered (fun n o => o.body n) n sent

/-- What is to be handed over of messages, the next id being `n` before the first of them. -/
def deliveries (n : Nat) (sent : List Outgoing) : List Delivery := numbered (fun n o => o.delivery n) n sent

theorem payload_delivery (n : Nat) (o : Outgoing) : (o.delivery n).payload = o.body n := by
  cases o <;> rfl

theorem payloads_deliveries (n : Nat) (sent : List Outgoing) :
    (deliveries n sent).map Delivery.payload = bodies n sent := by
  induction sent generalizing n with
  | nil => rfl
  | cons o sent ih =>
    simp only [deliveries, bodies, numbered, List.map_cons, payload_delivery] at ih ⊢
    rw [ih]

theorem exact_number {n : Nat} (few : n < 2 ^ 63) : (RequestId.number n).Exact := by
  simp only [RequestId.Exact, Json.IntegerRange.contains, Bool.and_eq_true, decide_eq_true_eq]
  omega

theorem ofBody?_delivery {n : Nat} {o : Outgoing} (fit : Payload.Fit o.params) (few : o.next n ≤ 2 ^ 63) :
    Delivery.ofBody? (o.body n) = some (o.delivery n) := by
  have exact : ∀ v, o.params = some v → v.Exact := fun v given => (fit v given).1
  cases o with
  | request method params =>
    have classified : Rpc.Message.ofBytes (Json.octets (Rpc.writeRequest (.number n) method params)) =
        .ok (.request (.number n) method) := Rpc.Message.ofBytes_request (exact_number few) exact
    simp only [Delivery.ofBody?, Outgoing.body, classified]
    rfl
  | notification method params =>
    have classified : Rpc.Message.ofBytes (Json.octets (Rpc.writeNotification method params)) =
        .ok (.notification method) := Rpc.Message.ofBytes_notification exact
    simp only [Delivery.ofBody?, Outgoing.body, classified]
    rfl

theorem params_delivery {n : Nat} {o : Outgoing} (fit : Payload.Fit o.params) (few : o.next n ≤ 2 ^ 63) :
    Payload.params (o.delivery n).payload = .ok (Payload.present o.params) := by
  rw [payload_delivery]
  cases o with
  | request method params => exact Payload.params_request (exact_number few) fit
  | notification method params => exact Payload.params_notification fit

section Sent

variable {sent : List Outgoing}

theorem classified_deliveries {n : Nat} (fit : ∀ o ∈ sent, Payload.Fit o.params)
    (few : sent.foldl Outgoing.next n ≤ 2 ^ 63) :
    ∀ d ∈ deliveries n sent, Delivery.ofBody? d.payload = some d := by
  induction sent generalizing n with
  | nil => exact nofun
  | cons o sent ih =>
    intro d member
    rcases List.mem_cons.mp member with rfl | later
    · rw [payload_delivery]
      exact ofBody?_delivery (fit o List.mem_cons_self) ((le_next _ _).trans few)
    · exact ih (fun o member => fit o (List.mem_cons_of_mem _ member)) few d later

theorem params_deliveries {n : Nat} (fit : ∀ o ∈ sent, Payload.Fit o.params)
    (few : sent.foldl Outgoing.next n ≤ 2 ^ 63) :
    (deliveries n sent).map (fun d => Payload.params d.payload) =
      sent.map fun o => .ok (Payload.present o.params) := by
  induction sent generalizing n with
  | nil => rfl
  | cons o sent ih =>
    have first := params_delivery (fit o List.mem_cons_self) ((le_next (o.next n) sent).trans few)
    have others := ih (fun o member => fit o (List.mem_cons_of_mem _ member)) few
    simp only [deliveries, numbered, List.map_cons, first] at others ⊢
    rw [others]

theorem delivers_deliveries {n : Nat} (small : ∀ body ∈ bodies n sent, body.length ≤ Frame.bodyLimit) :
    Frame.Delivers .start ((bodies n sent).flatMap Frame.encode) (framed (deliveries n sent)) := by
  have fits : ∀ body ∈ bodies n sent, body.length < 2 ^ 64 := fun body member =>
    (small body member).trans_lt (by decide)
  obtain ⟨arrivals, delivers, -, -, complete⟩ :=
    Frame.delivers_frames fits ((bodies n sent).flatMap Frame.encode).length
  have landed : (bodies n sent).map Frame.landing = (bodies n sent).map .frame :=
    List.map_congr_left fun body member => if_neg (Nat.not_lt.mpr (small body member))
  have same : framed (deliveries n sent) = (bodies n sent).map .frame ++ [.ended] := by
    rw [framed, ← payloads_deliveries, List.map_map]
    rfl
  rw [List.take_length] at delivers
  rw [same, ← landed, ← complete (Nat.le_refl _)]
  exact delivers

end Sent

/-- Whoever reads what was sent over an open connection hands every message over to the one who is
attached, in the order of the sends and nothing else; the requests have the ids from `n` on, and the
params are those that were sent. -/
theorem looped_back {s t : Session} {n : Nat} (ready : Ready s n) {tasks agenda : List Task}
    {ms : List Moment} (course : Course s tasks ms t agenda) (sends : ∀ m ∈ ms, m.sends)
    (fit : ∀ o ∈ ms.filterMap Moment.outgoing?, Payload.Fit o.params)
    (few : (ms.filterMap Moment.outgoing?).foldl Outgoing.next n ≤ 2 ^ 63)
    (small : ∀ body ∈ bodies n (ms.filterMap Moment.outgoing?), body.length ≤ Frame.bodyLimit) :
    let sent := ms.filterMap Moment.outgoing?
    (deliveries n sent).map (fun d => Payload.params d.payload) =
        sent.map (fun o => .ok (Payload.present o.params)) ∧
      ∀ input, Smooth input → octets input = wired (seen ms) →
        (∀ u rest ns v left, u.attached = true → Course u (.perform (.serve input) :: rest) ns v left →
          Unreturned rest.length ns → Looped (deliveries n sent) rest ns left) ∧
        ∀ u, u.attached = true → Recurs u [.perform (.serve input)] →
          ∃ k, (u.execute k (.serve input)).tasks = [] ∧
            (u.execute k (.serve input)).events.getLast? = some (.served (.ok ())) ∧
              (own 0 (trail k u [.perform (.serve input)])).filterMap Moment.delivery? =
                deliveries n sent := by
  intro sent
  have classified := classified_deliveries fit few
  refine ⟨params_deliveries fit few, fun input smooth supplied => ?_⟩
  have delivers : Frame.Delivers .start (octets input) (framed (deliveries n sent)) := by
    rw [supplied, (ready_of_course ready course sends few).2]
    exact delivers_deliveries small
  constructor
  · intro u rest ns v left attached course unreturned
    exact looped_of_course smooth attached delivers classified course unreturned
  · intro u attached recurs
    exact loops_of_recurs smooth attached delivers classified recurs

def hailing : List Task :=
  [.perform (.rawRequest "a" none []), .perform (.rawNotification "b" (some .null) [])]

def attendant : Session :=
  { overStream {} with
    attached := true
    requestHandler := some { name := none, verbose := false, before := [], reply := .echo } }

theorem prompt_attendant : Prompt attendant where
  requests := by
    intro handler given
    obtain rfl := Option.some.inj given
    rfl
  notifications := by
    intro handler given
    cases given
  idle := by
    rintro c same
    obtain rfl := Transport.connection.inj same
    rfl

theorem looped_back_hailing :
    let hails := trail 2 (overStream {}) hailing
    let input : List (Supply Op) := [.bytes (wired (seen hails))]
    ∃ k, (attendant.execute k (.serve input)).tasks = [] ∧
      (attendant.execute k (.serve input)).events.getLast? = some (.served (.ok ())) ∧
        (own 0 (trail k attendant [.perform (.serve input)])).filterMap Moment.delivery? =
          deliveries 1 [.request "a" none, .notification "b" (some .null)] := by
  intro hails input
  have ready : Ready (overStream {}) 1 := ⟨_, rfl, rfl, ⟨rfl, rfl⟩, rfl, rfl⟩
  have sent : hails.filterMap Moment.outgoing? = [.request "a" none, .notification "b" (some .null)] := by
    rfl
  have sends : ∀ m ∈ hails, m.sends := by
    intro m member
    rcases List.mem_cons.mp member with rfl | member
    · trivial
    rcases List.mem_cons.mp member with rfl | member
    · trivial
    · cases member
  have fit : ∀ o ∈ hails.filterMap Moment.outgoing?, Payload.Fit o.params := by
    rw [sent]
    intro o member v given
    obtain rfl | rfl := by simpa using member
    · cases given
    · obtain rfl := Option.some.inj given
      exact ⟨trivial, by decide⟩
  have small : ∀ body ∈ bodies 1 (hails.filterMap Moment.outgoing?), body.length ≤ Frame.bodyLimit := by
    rw [sent]
    decide +kernel
  have course : Course (overStream {}) hailing hails _ _ := Course.of_run 2 (overStream {}) hailing
  obtain ⟨-, serves⟩ := looped_back ready course sends fit (by rw [sent]; decide) small
  have smooth : Smooth input := by simp [Smooth, input]
  have plain : Plain input := by simp [Plain, input]
  have done := (serves input smooth (List.append_nil _)).2 attendant rfl (recurs_of_prompt prompt_attendant plain)
  rwa [sent] at done

end Session
end LanguageClient
