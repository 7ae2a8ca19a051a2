import LanguageClient.Proofs.Session.Course

/-! What leaves the sends of a session alone.

Inbound messages, however they are answered, touch neither the table of pending requests
nor the numbers and ids of sends, and they complete nothing.
-/

set_option autoImplicit false
namespace LanguageClient

open Json (Value)
open Rpc (RequestId Response Outcome)

def Event.completion? : Event → Option (Nat × Completed)
  | .completed number outcome => some (number, outcome)
  | _ => none

/-- What of a session concerns its sends. -/
structure Line where
  pending : List (RequestId × Completion)
  closed : Bool
  nextId : Int64
  sends : Nat

def Task.idle : Task → Bool
  | .finish .. | .stopped _ => false
  | _ => true

namespace Session

def line (s : Session) : Option Line :=
  match s.transport with
  | .connection c => some ⟨c.pending, c.closed, c.nextId, s.sends⟩
  | .scripted _ => none

/-- Nothing is sent, decided or completed. -/
structure Idle (s : Session) (turn : Turn) : Prop where
  line : turn.session.line = s.line
  silent : turn.events.filterMap Event.completion? = []
  tasks : ∀ task ∈ turn.tasks, task.idle = true
  held : ∀ entry ∈ turn.session.held, ∀ c, entry.2 = .completion c → entry ∈ s.held

namespace Idle

variable {s t : Session} {turn : Turn} {more : Session → Turn} {events : List Event}

theorem quiet (same : t.line = s.line) (kept : t.held = s.held)
    (silent : events.filterMap Event.completion? = []) :
    Idle s { session := t, events := events } where
  line := same
  silent := silent
  tasks := by simp
  held := fun _ member _ _ => kept ▸ member

theorem andThen (h : Idle s turn) (k : Idle turn.session (more turn.session)) :
    Idle s (turn.andThen more) where
  line := k.line.trans h.line
  silent := by simp [Turn.andThen, h.silent, k.silent]
  tasks := by
    intro task member
    rcases List.mem_append.mp member with left | right
    · exact h.tasks task left
    · exact k.tasks task right
  held := fun entry member c same => h.held entry (k.held entry member c same) c same

theorem emit (h : Idle s turn) (silent : events.filterMap Event.completion? = []) :
    Idle s (turn.emit events) where
  line := h.line
  silent := by simp [Turn.emit, h.silent, silent]
  tasks := h.tasks
  held := h.held

end Idle

theorem write_line (c : Connection) (subject : Subject) (text : List Char) :
    (c.write subject text).1.pending = c.pending ∧ (c.write subject text).1.closed = c.closed ∧
      (c.write subject text).1.nextId = c.nextId := by
  unfold Connection.write
  split <;> exact ⟨rfl, rfl, rfl⟩

section Answers

variable (s : Session)

theorem idle_writeResponse (number : Nat) (r : Response) : Idle s (s.writeResponse number r) := by
  cases carrier : s.transport with
  | scripted peer =>
    simp only [writeResponse, carrier]
    exact .quiet rfl rfl rfl
  | connection c =>
    obtain ⟨pending, closed, nextId⟩ := write_line c (.response number r.id) r.write
    simp only [writeResponse, carrier]
    refine .quiet ?_ rfl ?_
    · simp only [line, carrier, pending, closed, nextId]
    · rw [List.filterMap_append, filterMap_write Event.completion? fun _ _ => rfl]
      split <;> simp [logged, Event.completion?]

theorem idle_respond (number attachment : Nat) (route : Route) (r : Response) :
    Idle s (s.respond number attachment route r) := by
  have traced : Idle s
      { session := s, events := s.traceResponse attachment r ++ [@Event.response number r] } := by
    refine .quiet rfl rfl ?_
    rw [List.filterMap_append, traceResponse, filterMap_wire Event.completion? fun _ => rfl]
    rfl
  cases route with
  | direct => exact traced
  | wire =>
    simp only [respond]
    exact traced.andThen (s.idle_writeResponse number r)

theorem idle_reject (number attachment : Nat) (route : Route) (id : RequestId) (e : ExchangeError) :
    Idle s (s.reject number attachment route id e) :=
  s.idle_respond number attachment route _

theorem idle_acknowledge (number : Nat) (route : Route) (method : String)
    (outcome : Except ExchangeError Unit) : Idle s (s.acknowledge number route method outcome) := by
  refine .quiet rfl rfl ?_
  cases route <;> cases outcome <;> simp [Event.completion?, logged]

theorem idle_answerWith (r : Responder) (outcome : Except ExchangeError Value) :
    Idle s (s.answerWith r outcome) := by
  cases outcome with
  | ok v => exact s.idle_respond _ _ _ _
  | error e =>
    simp only [answerWith]
    apply Idle.andThen
    · exact .quiet rfl rfl rfl
    · exact s.idle_reject _ _ _ _ _

theorem idle_dropResponder (r : Responder) : Idle s (s.dropResponder r) := by
  apply Idle.andThen
  · exact .quiet rfl rfl rfl
  · exact s.idle_reject _ _ _ _ _

theorem idle_dropAcknowledger (a : Acknowledger) : Idle s (s.dropAcknowledger a) := by
  apply Idle.andThen
  · exact .quiet rfl rfl rfl
  · exact s.idle_acknowledge _ _ _ _

theorem idle_hold {h : Held} (other : ∀ c, h ≠ .completion c) :
    Idle s { session := s.hold h } where
  line := rfl
  silent := rfl
  tasks := by simp
  held := by
    intro entry member c same
    rcases List.mem_append.mp member with old | new
    · exact old
    · rw [List.mem_singleton.mp new] at same
      exact absurd same (other c)

theorem idle_answer (r : Responder) (echoed : Value) (reply : RequestReply) :
    Idle s (s.answer r echoed reply) := by
  cases reply with
  | drop => exact s.idle_dropResponder r
  | hold => exact s.idle_hold (by simp)
  | echo => exact s.idle_answerWith r (.ok echoed)
  | respond outcome => exact s.idle_answerWith r outcome

theorem idle_settleNotification (a : Acknowledger) (reply : NotificationReply) :
    Idle s (s.settleNotification a reply) := by
  cases reply with
  | drop => exact s.idle_dropAcknowledger a
  | hold => exact s.idle_hold (by simp)
  | acknowledge outcome => exact s.idle_acknowledge _ _ _ _

theorem idle_reportError (e : TransportError) : Idle s (s.reportError e) := .quiet rfl rfl rfl

theorem idle_reportFrame (e : TransportError) : Idle s (s.reportFrame e) := by
  rw [reportFrame]
  split
  · exact s.idle_reportError e
  · exact .quiet rfl rfl rfl

end Answers

section Messages

variable (s : Session)

theorem idle_callRequest (handler : RequestHandler) (m : ServerRequest.Message) (r : Responder) :
    Idle s (s.callRequest handler m r) where
  line := rfl
  silent := rfl
  tasks := by simp [callRequest, Task.idle, or_imp, forall_and]
  held := fun _ member _ _ => member

theorem idle_callNotification (handler : NotificationHandler) (m : ServerNotification.Message)
    (a : Acknowledger) : Idle s (s.callNotification handler m a) where
  line := rfl
  silent := rfl
  tasks := by simp [callNotification, Task.idle, or_imp, forall_and]
  held := fun _ member _ _ => member

theorem idle_admitted (method : String) (payload : List UInt8) :
    Idle s { session := s.admitted, events := s.traceInbound method payload } :=
  .quiet rfl rfl (filterMap_wire Event.completion? (fun _ => rfl) _ _ _)

theorem idle_handleRequest (route : Route) (id : RequestId) (method : String)
    (payload : List UInt8) : Idle s (s.handleRequest route id method payload) := by
  have taken := s.idle_admitted method payload
  unfold handleRequest
  split
  · exact (taken.emit rfl).andThen (idle_reject _ _ _ _ _ _)
  · split
    · exact (taken.emit rfl).andThen (idle_reject _ _ _ _ _ _)
    · split
      · exact (taken.emit rfl).andThen (idle_reject _ _ _ _ _ _)
      · exact (taken.emit rfl).andThen (idle_callRequest _ _ _ _)

theorem idle_handleNotification (route : Route) (method : String) (payload : List UInt8) :
    Idle s (s.handleNotification route method payload) := by
  have taken := s.idle_admitted method payload
  unfold handleNotification
  split
  · exact (taken.emit rfl).andThen (idle_acknowledge _ _ _ _ _)
  · split
    · exact (taken.emit rfl).andThen (idle_acknowledge _ _ _ _ _)
    · split
      · exact (taken.emit rfl).andThen (idle_acknowledge _ _ _ _ _)
      · exact (taken.emit rfl).andThen (idle_callNotification _ _ _ _)

theorem idle_refuseEarly (id : RequestId) (method : String) : Idle s (s.refuseEarly id method) := by
  apply Idle.andThen
  · exact .quiet rfl rfl rfl
  · exact idle_writeResponse _ _ _

end Messages

end Session
end LanguageClient
