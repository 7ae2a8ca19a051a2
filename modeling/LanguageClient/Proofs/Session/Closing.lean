import LanguageClient.Proofs.Session.Completion
import LanguageClient.Proofs.Session.Loopback

/-! A transport that is closed.

The end of a stream closes it, and nothing opens it again. Nothing waits there any longer; a
send is turned down at once, whoever makes it, and neither the sink nor the buffer of the
connection gets anything of it.
-/

set_option autoImplicit false
namespace LanguageClient

open Rpc (RequestId Outcome)

/-- The transport of a session is a connection that is closed. -/
def Session.Closed (s : Session) : Prop := ∃ c, s.transport = .connection c ∧ c.closed = true

/-- A step that finds a closed connection with nothing waiting, and leaves it like that without
having written anything. -/
def Moment.Barred (m : Moment) : Prop :=
  ∃ c d, m.session.transport = .connection c ∧ m.turn.session.transport = .connection d ∧
    c.closed = true ∧ c.pending = [] ∧ d.closed = true ∧ d.pending = [] ∧ d.writer = c.writer ∧
      wired m.turn.events = []

namespace Session

/-- What a closed transport means for a course. -/
structure Shut (ms : List Moment) (t : Session) (rest : List Task) : Prop where
  empty : ∀ c, t.transport = .connection c → c.closed = true → c.pending = []
  lasting : ∀ before m after, ms = before ++ m :: after → m.session.Closed →
    (∀ k ∈ after, k.session.Closed) ∧ t.Closed
  /-- The end of a stream closes the transport in the same step, before any completion is called. -/
  ended : ∀ m ∈ ms, m.ends = true → m.turn.session.Closed
  /-- A call that reads a stream comes back to a closed transport, whatever its outcome. -/
  returned : ∀ m ∈ ms, ∀ outcome, m.task = .stopped outcome → m.turn.session.Closed
  /-- Until the transport is closed such a call has reading to do, before all that was to come behind it. -/
  reading : ∀ before m after input, ms = before ++ m :: after → m.task = .perform (.serve input) →
    t.Closed ∨ ∃ front phase bytes left, rest = front ++ .receive phase bytes left :: m.later
  /-- A notification is turned down while it is sent. -/
  notification : ∀ before m after number outcome, ms = before ++ m :: after → m.session.Closed →
    m.notifies? = some (number, outcome) →
      m.Barred ∧ (outcome = .broken .closed ∨ outcome = .failed (.notificationNotSent .closed)) ∧
        m.turn.events.filterMap Event.completion? = [(number, outcome)] ∧
          callsOf number (seen ms) = [outcome]
  /-- A request is turned down, and then comes the call of its completion, the only one. -/
  request : ∀ before m after a, ms = before ++ m :: after → m.session.Closed → m.asks? = some a →
    m.Barred ∧ m.turn.tasks = [.finish a.completion (.error .closed)] ∧
      (after = [] ∧ rest = .finish a.completion (.error .closed) :: m.later ∨
        ∃ k later, after = k :: later ∧ k.task = .finish a.completion (.error .closed) ∧ k.Barred ∧
          k.turn.events.filterMap Event.completion? =
              [(a.completion.number, a.completion.report (.error .closed))] ∧
            callsOf a.completion.number (seen ms) = [a.completion.report (.error .closed)])

/-! Sends that are turned down. -/

section Refusals

variable {s : Session} {c : Connection} {m : Moment}

theorem refusal_of_closed (closed : c.closed = true) (text : List Char) :
    c.refusal? text = some .closed := if_pos closed

theorem transmitNotification_closed (carrier : s.transport = .connection c) (closed : c.closed = true)
    (method : String) (params : Option Json.Value) :
    (s.transmitNotification method params).1 = s ∧ wired (s.transmitNotification method params).2.1 = [] ∧
      (s.transmitNotification method params).2.2 = .error .closed := by
  simp only [transmitNotification, carrier, closed, if_true]
  exact ⟨trivial, rfl, trivial⟩

theorem barred_of_transport {d : Connection} (carrier : m.session.transport = .connection c)
    (closed : c.closed = true) (empty : c.pending = []) (after : m.turn.session.transport = .connection d)
    (same : d.closed = c.closed ∧ d.pending = c.pending ∧ d.writer = c.writer)
    (dry : wired m.turn.events = []) : m.Barred :=
  ⟨c, d, carrier, after, closed, empty, same.1.trans closed, same.2.1.trans empty, same.2.2, dry⟩

structure Denied (c : Connection) (turn : Turn) (a : Asking) : Prop where
  refusal : a.refusal = some .closed
  transport : turn.session.transport = .connection { c with nextId := c.nextId + 1 }
  dry : wired turn.events = []
  tasks : turn.tasks = [.finish a.completion (.error .closed)]

theorem denied_of_asks {a : Asking} (asked : m.asks? = some a) (carrier : m.session.transport = .connection c)
    (closed : c.closed = true) : Denied c m.turn a := by
  obtain ⟨records, method, params, purpose, after, turn, asked⟩ := turn_of_asks asked
  have counted : m.session.counted.transport = .connection c := carrier
  rw [asking_eq carrier, Option.some.injEq] at asked
  subst asked
  rw [turn]
  simp only [requesting, Turn.andThen, transmitRequest, counted, if_pos closed]
  constructor
  · dsimp only
    exact refusal_of_closed closed _
  · rfl
  · rw [wired_append, wired_records]
    rfl
  · rfl

theorem denied_notification {number : Nat} {outcome : Completed} (notified : m.notifies? = some (number, outcome))
    (carrier : m.session.transport = .connection c) (closed : c.closed = true) :
    (outcome = .broken .closed ∨ outcome = .failed (.notificationNotSent .closed)) ∧
      m.turn.session.transport = .connection c ∧ wired m.turn.events = [] := by
  obtain ⟨front, back, method, params, wrap, after, turn, notified, wraps⟩ := turn_of_notifies notified
  have counted : m.session.counted.transport = .connection c := carrier
  obtain ⟨kept, dry, ended⟩ := transmitNotification_closed counted closed method params
  rw [notifying_eq carrier, refusal_of_closed closed] at notified
  cases notified
  refine ⟨?_, ?_, ?_⟩
  · rcases wraps with rfl | rfl
    · exact .inl rfl
    · exact .inr rfl
  · rw [turn, announcing, kept]
    exact carrier
  · simp only [turn, announcing, wired_append, wired_records, dry]
    rfl

theorem wired_settle (method : ClientRequest) (result : Schema) (outcome : Except TransportError Outcome) :
    wired (settle method result outcome).1 = [] := by
  unfold settle
  repeat' split
  all_goals rfl

theorem finish_silent (s : Session) (completion : Completion) (outcome : Except TransportError Outcome) :
    (s.finish completion outcome).session = s ∧ wired (s.finish completion outcome).events = [] := by
  refine ⟨rfl, ?_⟩
  rcases completion with ⟨number, ⟨method, result⟩ | _, after⟩
  · simp only [finish, wired_append, wired_settle]
    rfl
  · rfl

end Refusals

/-! Courses. -/

/-- Where a completion is about to be called nothing else comes first. -/
theorem Course.then_finish {s t : Session} {rest others : List Task} {ms : List Moment} {completion : Completion}
    {outcome : Except TransportError Outcome} (course : Course s (.finish completion outcome :: others) ms t rest) :
    (ms = [] ∧ t = s ∧ rest = .finish completion outcome :: others) ∨
      ∃ later, ms = ⟨s, .finish completion outcome, others⟩ :: later := by
  induction course with
  | start => exact .inl ⟨rfl, rfl, rfl⟩
  | @step ms now task rest _ ih =>
    rcases ih with ⟨rfl, rfl, due⟩ | ⟨later, rfl⟩
    · obtain ⟨rfl, rfl⟩ := List.cons.inj due
      exact .inr ⟨[], rfl⟩
    · exact .inr ⟨later ++ [⟨now, task, rest⟩], rfl⟩
  | call op _ free ih | letGo _ free ih =>
    rcases ih with ⟨-, -, due⟩ | next
    · rw [due] at free
      cases free _ rfl
    · exact .inr next

section Course

variable {config : Config} {ms before after : List Moment} {m : Moment} {s t : Session} {task : Task}
  {rest agenda later : List Task} {phase : Frame.Phase} {bytes : List UInt8} {input : List (Supply Op)}

theorem closed_of_line {l : Line} (line : s.line = some l) (closed : l.closed = true) : s.Closed := by
  obtain ⟨c, carrier, rfl⟩ := connection_of_line line
  exact ⟨c, carrier, closed⟩

theorem closed_step (course : Course (overStream config) [] ms s (task :: rest)) (closed : s.Closed) :
    (s.step task).session.Closed := by
  obtain ⟨c, carrier, tally⟩ := carried_of_course course
  obtain ⟨d, same, done⟩ := closed
  obtain rfl : c = d := Transport.connection.inj (carrier.symm.trans same)
  obtain ⟨k, balanced⟩ := tally.balanced
  exact closed_of_line balanced.line (balanced.opened done)

theorem lasting_of_course (course : Course (overStream config) [] ms s agenda) (closed : s.Closed)
    (onward : Course s agenda after t rest) : (∀ k ∈ after, k.session.Closed) ∧ t.Closed := by
  induction onward with
  | start => exact ⟨by simp, closed⟩
  | @step after now task rest onward ih =>
    obtain ⟨meanwhile, shut⟩ := ih
    refine ⟨fun k member => ?_, closed_step (course.trans onward) shut⟩
    rcases List.mem_append.mp member with old | new
    · exact meanwhile k old
    · rw [List.mem_singleton.mp new]
      exact shut
  | call op _ _ ih => exact ih
  | letGo _ _ ih => exact ih

theorem closes_or_reads (course : Course (overStream config) [] ms s (task :: rest))
    (reading : task = .receive phase bytes input) :
    (s.step task).session.Closed ∨
      ∃ front phase bytes left, (s.step task).tasks = front ++ [.receive phase bytes left] := by
  obtain ⟨c, carrier, -⟩ := carried_of_course course
  let m : Moment := ⟨s, task, rest⟩
  have reading : m.task = .receive phase bytes input := reading
  show m.turn.session.Closed ∨ ∃ front phase bytes left, m.turn.tasks = front ++ [.receive phase bytes left]
  cases arrived : m.arrival? with
  | some arrival =>
    cases final : arrival.final with
    | true =>
      obtain ⟨outcome, moved⟩ := moves_of_ends ((Moment.ends_of_arrival arrived).trans final) carrier
      exact .inl (closed_of_line moved.line rfl)
    | false =>
      obtain ⟨notes, turn⟩ := turn_of_arrival arrived
      rw [turn, noted_meet_tasks, Moment.resumed_of_going reading final]
      exact .inr ⟨_, _, _, _, rfl⟩
  | none =>
    obtain ⟨notes, starving, starved, turn, interrupted⟩ := turn_of_none reading arrived
    rw [turn]
    right
    rcases input with _ | ⟨bytes | fault | op, left⟩
    · exact ⟨[], _, _, _, rfl⟩
    · exact ⟨[], _, _, _, rfl⟩
    · obtain rfl := interrupted fault left rfl
      exact ⟨[], _, _, _, rfl⟩
    · exact ⟨[.perform op], _, _, _, rfl⟩

theorem reading_of_course (course : Course (overStream config) [] ms s (.receive phase bytes input :: later))
    (onward : Course s (.receive phase bytes input :: later) after t rest) :
    t.Closed ∨ ∃ front phase bytes left, rest = front ++ .receive phase bytes left :: later := by
  induction onward with
  | start => exact .inr ⟨[], _, _, _, rfl⟩
  | @step after now task rest onward ih =>
    have reached := course.trans onward
    obtain closed | ⟨front, phase, bytes, left, agenda⟩ := ih
    · exact .inl (closed_step reached closed)
    · cases front with
      | nil =>
        obtain ⟨own, behind⟩ := List.cons.inj agenda
        obtain closed | ⟨front, phase, bytes, left, tasks⟩ := closes_or_reads reached own
        · exact .inl closed
        · exact .inr ⟨front, phase, bytes, left, by rw [tasks, behind, List.append_assoc]; rfl⟩
      | cons first front =>
        have behind : rest = front ++ .receive phase bytes left :: later := (List.cons.inj agenda).2
        exact .inr ⟨_ ++ front, phase, bytes, left, by rw [behind, List.append_assoc]⟩
  | call op _ _ ih =>
    obtain closed | ⟨front, phase, bytes, left, agenda⟩ := ih
    · exact .inl closed
    · exact .inr ⟨.perform op :: front, phase, bytes, left, by rw [agenda]; rfl⟩
  | letGo _ _ ih =>
    obtain closed | ⟨front, phase, bytes, left, agenda⟩ := ih
    · exact .inl closed
    · exact .inr ⟨_ ++ front, phase, bytes, left, by rw [agenda, List.append_assoc]⟩

theorem empty_of_closed (course : Course (overStream config) [] ms t rest) (closed : t.Closed) :
    ∃ c, t.transport = .connection c ∧ c.closed = true ∧ c.pending = [] := by
  obtain ⟨c, carrier, tally⟩ := carried_of_course course
  obtain ⟨d, same, done⟩ := closed
  obtain rfl : c = d := Transport.connection.inj (carrier.symm.trans same)
  exact ⟨c, carrier, done, tally.closed done⟩

theorem shut_notification (course : Course (overStream config) [] ms t rest)
    (split : ms = before ++ m :: after) (closed : m.session.Closed) {number : Nat} {outcome : Completed}
    (notified : m.notifies? = some (number, outcome)) :
    m.Barred ∧ (outcome = .broken .closed ∨ outcome = .failed (.notificationNotSent .closed)) := by
  obtain ⟨c, carrier, done, empty⟩ := empty_of_closed (course.upTo split) closed
  obtain ⟨told, kept, dry⟩ := denied_notification notified carrier done
  exact ⟨barred_of_transport carrier done empty kept ⟨rfl, rfl, rfl⟩ dry, told⟩

theorem shut_request (course : Course (overStream config) [] ms t rest)
    (split : ms = before ++ m :: after) (closed : m.session.Closed) {a : Asking} (asked : m.asks? = some a) :
    m.Barred ∧ a.refusal = some .closed ∧ m.turn.tasks = [.finish a.completion (.error .closed)] := by
  obtain ⟨c, carrier, done, empty⟩ := empty_of_closed (course.upTo split) closed
  have denied := denied_of_asks asked carrier done
  exact ⟨barred_of_transport carrier done empty denied.transport ⟨rfl, rfl, rfl⟩ denied.dry,
    denied.refusal, denied.tasks⟩

theorem shut_finish (course : Course (overStream config) [] ms t rest) {k : Moment} {later : List Moment}
    (split : ms = before ++ m :: k :: later) {a : Asking} (asked : m.asks? = some a)
    (refused : a.refusal = some .closed) (closed : k.session.Closed)
    (calling : k.task = .finish a.completion (.error .closed)) :
    k.Barred ∧
      k.turn.events.filterMap Event.completion? =
          [(a.completion.number, a.completion.report (.error .closed))] ∧
        callsOf a.completion.number (seen ms) = [a.completion.report (.error .closed)] := by
  have behind : ms = (before ++ [m]) ++ k :: later := by simpa using split
  obtain ⟨c, carrier, done, empty⟩ := empty_of_closed (course.upTo behind) closed
  have turn : k.turn = k.session.finish a.completion (.error .closed) := by
    rw [Moment.turn, calling]
    rfl
  obtain ⟨still, dry⟩ := k.session.finish_silent a.completion (.error .closed)
  have calls := (moves_finish carrier a.completion (.error .closed)).calls
  rw [← turn] at still dry calls
  refine ⟨barred_of_transport carrier done empty (still ▸ carrier) ⟨rfl, rfl, rfl⟩ dry, calls, ?_⟩
  obtain ⟨earned, -⟩ := earned_request course split asked
  have verdict : a.verdict (k :: later) = some (.settled (.error .closed)) := by rw [Asking.verdict, refused]
  rw [verdict] at earned
  exact called_once (called_of_mem (by simp [split]) calls) earned

/-- Closed is final: nothing waits there, and what is sent is turned down at once. -/
theorem shut_of_course (course : Course (overStream config) [] ms t rest) : Shut ms t rest where
  empty := by
    intro c carrier closed
    obtain ⟨d, same, -, empty⟩ := empty_of_closed course ⟨c, carrier, closed⟩
    obtain rfl : c = d := Transport.connection.inj (carrier.symm.trans same)
    exact empty
  lasting := by
    intro before m after split closed
    have reached := course.upTo split
    exact lasting_of_course (.step reached) (closed_step reached closed) (course.behind split)
  ended := by
    intro m member ended
    obtain ⟨before, after, split⟩ := List.append_of_mem member
    obtain ⟨c, carrier, -⟩ := carried_of_course (course.upTo split)
    obtain ⟨outcome, moved⟩ := moves_of_ends ended carrier
    exact closed_of_line moved.line rfl
  returned := by
    intro m member outcome stopped
    obtain ⟨before, after, split⟩ := List.append_of_mem member
    obtain ⟨c, carrier, tally⟩ := carried_of_course (course.upTo split)
    -- The outcome of a call is on the agenda only after the transport was closed.
    have closed : c.closed = true := tally.stopped outcome (by rw [stopped]; exact List.mem_cons_self)
    have still : m.turn.session = m.session := by
      rw [Moment.turn, stopped]
      rfl
    rw [still]
    exact ⟨c, carrier, closed⟩
  reading := by
    intro before m after input split called
    obtain ⟨s, task, later⟩ := m
    obtain rfl : task = .perform (.serve input) := called
    exact reading_of_course (.step (course.upTo split)) (course.behind split)
  notification := by
    intro before m after number outcome split closed notified
    obtain ⟨barred, told⟩ := shut_notification course split closed notified
    exact ⟨barred, told, earned_notification course split notified⟩
  request := by
    intro before m after a split closed asked
    obtain ⟨barred, refused, tasks⟩ := shut_request course split closed asked
    have reached := course.upTo split
    have onward := course.behind split
    have meanwhile := (lasting_of_course (.step reached) (closed_step reached closed) onward).1
    rw [tasks, List.singleton_append] at onward
    refine ⟨barred, tasks, ?_⟩
    rcases onward.then_finish with ⟨last, -, due⟩ | ⟨later, rfl⟩
    · exact .inl ⟨last, due⟩
    · exact .inr ⟨_, later, rfl, rfl,
        shut_finish course split asked refused (meanwhile _ List.mem_cons_self) rfl⟩

/-- A request that the end of a stream cuts off, and another one that its completion sends. -/
theorem shut_at_end_of_stream :
    ∃ ms t, Course (overStream {}) [] ms t [] ∧ Shut ms t [] ∧ t.Closed ∧
      callsOf 1 (seen ms) = [.broken .closed] ∧ callsOf 2 (seen ms) = [.broken .closed] := by
  have idle : Course (overStream {}) [] [] (overStream {}) [] := .start
  have sent := idle.execute 1 (.rawRequest "shutdown" none [.rawRequest "exit" none []])
  have served := Course.execute sent 6 (.serve [])
  refine ⟨_, _, served, shut_of_course served, ⟨_, rfl, rfl⟩, ?_⟩
  rw [seen_append, List.nil_append, seen_trail, seen_trail]
  exact ⟨rfl, rfl⟩

end Course

end Session
end LanguageClient
