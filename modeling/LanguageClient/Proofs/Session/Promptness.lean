import LanguageClient.Proofs.Session.Alignment
import LanguageClient.Proofs.Session.Dispatch
import LanguageClient.Proofs.Session.Duty
import LanguageClient.Proofs.Session.Outbound

/-! A call comes back where handlers do nothing but reply.

Such a handler leaves one task, its reply, and a reply leaves none. So behind every message
that is read the agenda is soon down to the reading again.
-/

set_option autoImplicit false
namespace LanguageClient.Session

open Json (Value)
open Rpc (RequestId Response)

/-- Handlers do nothing before they reply, and no request waits. -/
structure Prompt (s : Session) : Prop where
  requests : ∀ handler, s.requestHandler = some handler → handler.before = []
  notifications : ∀ handler, s.notificationHandler = some handler → handler.before = []
  idle : ∀ c, s.transport = .connection c → c.pending = []

/-- The task of a handler that replies. -/
inductive Reply : Task → Prop where
  | answer {r : Responder} {echoed : Value} {reply : RequestReply} : Reply (.answer r echoed reply)
  | acknowledge {a : Acknowledger} {reply : NotificationReply} : Reply (.acknowledge a reply)

inductive Brief : List Task → Prop where
  | done : Brief []
  | reply {task : Task} : Reply task → Brief [task]

structure Passes (turn : Turn) (tasks : List Task → Prop) : Prop where
  prompt : Prompt turn.session
  tasks : tasks turn.tasks

section Turns

variable {s : Session}

theorem prompt_of_same {t : Session} (prompt : Prompt s) (attendance : t.attendance = s.attendance)
    (line : t.line = s.line) : Prompt t where
  requests := fun handler given =>
    prompt.requests handler ((congrArg Attendance.requests attendance).symm.trans given)
  notifications := fun handler given =>
    prompt.notifications handler ((congrArg Attendance.notifications attendance).symm.trans given)
  idle := by
    intro c carrier
    rw [line_of_connection carrier] at line
    obtain ⟨d, source, same⟩ := connection_of_line line.symm
    exact (congrArg Line.pending same).trans (prompt.idle d source)

theorem tasks_respond (number attachment : Nat) (route : Route) (r : Response) :
    (s.respond number attachment route r).tasks = [] := by
  cases route with
  | direct => rfl
  | wire => exact (held_writeResponse _ number r).2.2.2.1

theorem tasks_refuseEarly (id : RequestId) (method : String) : (s.refuseEarly id method).tasks = [] := by
  have written := (held_writeResponse s.admitted s.received (.failure id
    (.new Rpc.RpcError.methodNotFound ("no handler attached for '" ++ method ++ "'")))).2.2.2.1
  rw [refuseEarly, Turn.andThen]
  exact written

theorem tasks_reply {task : Task} (reply : Reply task) : (s.step task).tasks = [] := by
  cases reply with
  | @answer r echoed reply =>
    cases reply with
    | respond outcome => cases outcome <;> exact tasks_respond _ _ _ _
    | hold => rfl
    | _ => exact tasks_respond _ _ _ _
  | @acknowledge a reply => cases reply <;> rfl

theorem brief_handleRequest (prompt : Prompt s) (route : Route) (id : RequestId) (method : String)
    (payload : List UInt8) : Brief (s.handleRequest route id method payload).tasks := by
  unfold handleRequest
  have rejected {t : Session} (number attachment : Nat) (e : ExchangeError) :
      Brief (t.reject number attachment route id e).tasks := by
    rw [reject, tasks_respond]
    exact .done
  split
  · exact rejected _ _ _
  · split
    · exact rejected _ _ _
    · rename_i handler given
      split
      · exact rejected _ _ _
      · simp only [Turn.andThen, Turn.emit, callRequest, prompt.requests handler given]
        exact .reply .answer

theorem brief_handleNotification (prompt : Prompt s) (route : Route) (method : String)
    (payload : List UInt8) : Brief (s.handleNotification route method payload).tasks := by
  unfold handleNotification
  split
  · exact .done
  · split
    · exact .done
    · rename_i handler given
      split
      · exact .done
      · simp only [Turn.andThen, Turn.emit, callNotification, prompt.notifications handler given]
        exact .reply .acknowledge

theorem passes_reply (prompt : Prompt s) {task : Task} (reply : Reply task) :
    Passes (s.step task) (· = []) := by
  refine ⟨?_, tasks_reply reply⟩
  cases reply with
  | answer => exact prompt_of_same prompt (s.untroubled_answer _ _ _).attendance (s.idle_answer _ _ _).line
  | acknowledge =>
    exact prompt_of_same prompt (s.untroubled_settleNotification _ _).attendance
      (s.idle_settleNotification _ _).line

theorem passes_reportFrame (prompt : Prompt s) (e : TransportError) : Passes (s.reportFrame e) Brief := by
  unfold reportFrame
  split
  · exact ⟨prompt, .done⟩
  · exact ⟨prompt, .done⟩

theorem passes_correlate (prompt : Prompt s) (id : RequestId) (outcome : Rpc.Outcome) :
    Passes (s.correlate id outcome) Brief := by
  unfold correlate
  cases carrier : s.transport with
  | scripted peer => exact ⟨prompt, .done⟩
  | connection c =>
    simp only [Connection.take?, prompt.idle c carrier, List.lookup_nil, Option.map_none]
    exact ⟨prompt, .done⟩

theorem passes_route (prompt : Prompt s) (body : List UInt8) : Passes (s.route body) Brief := by
  unfold route
  split
  · exact passes_reportFrame prompt _
  · exact passes_correlate prompt _ _
  · exact ⟨prompt, .done⟩
  · split
    · exact ⟨prompt_of_same prompt (s.untroubled_handleRequest _ _ _ _).attendance
        (s.idle_handleRequest _ _ _ _).line, brief_handleRequest prompt _ _ _ _⟩
    · refine ⟨prompt_of_same prompt (s.untroubled_refuseEarly _ _).attendance
        (s.idle_refuseEarly _ _).line, ?_⟩
      rw [tasks_refuseEarly]
      exact .done
  · split
    · exact ⟨prompt_of_same prompt (s.untroubled_handleNotification _ _ _).attendance
        (s.idle_handleNotification _ _ _).line, brief_handleNotification prompt _ _ _⟩
    · exact ⟨prompt, .done⟩

theorem passes_stop (prompt : Prompt s) (outcome : Except StreamError Unit) :
    Passes (s.stop outcome) (· = [.stopped outcome]) := by
  cases carrier : s.transport with
  | scripted peer =>
    simp only [stop, Turn.andThen, close, carrier]
    exact ⟨prompt, rfl⟩
  | connection c =>
    simp only [stop, Turn.andThen, close, carrier, prompt.idle c carrier]
    refine ⟨⟨prompt.requests, prompt.notifications, ?_⟩, rfl⟩
    rintro d same
    obtain rfl := Transport.connection.inj same
    rfl

theorem passes_meet (prompt : Prompt s) {arrival : Frame.Arrival} (going : arrival.final = false) :
    Passes (s.meet arrival) Brief := by
  cases arrival with
  | frame body => exact passes_route prompt body
  | rejected e => exact passes_reportFrame prompt e
  | starved phase => exact ⟨prompt, .done⟩
  | _ => cases going

theorem passes_receive {m : Moment} (prompt : Prompt m.session) {phase : Frame.Phase}
    {bytes : List UInt8} {input : List (Supply Op)} (reading : m.task = .receive phase bytes input)
    (plain : Plain input) :
    Passes m.turn fun tasks => ∃ front task, tasks = front ++ [task] ∧ Brief front ∧ Solo task := by
  cases arrived : m.arrival? with
  | some arrival =>
    obtain ⟨notes, turn⟩ := turn_of_arrival arrived
    rw [turn]
    cases going : arrival.final with
    | true =>
      obtain ⟨outcome, -, stops⟩ := meet_final m.session going
      have met : Passes (m.session.meet arrival) (· = [.stopped outcome]) := stops ▸ passes_stop prompt outcome
      refine ⟨met.prompt, ?_⟩
      rw [noted_meet_tasks, met.tasks, Moment.resumed_of_final going]
      exact ⟨[], _, rfl, .done, .ended⟩
    | false =>
      have met := passes_meet prompt going
      refine ⟨met.prompt, ?_⟩
      rw [noted_meet_tasks, Moment.resumed_of_going reading going]
      exact ⟨_, _, rfl, met.tasks, .reading plain⟩
  | none =>
    obtain ⟨still, next, solo, tasks⟩ := solo_of_none reading plain arrived
    exact ⟨still.symm ▸ prompt, [], next, tasks, .done, solo⟩

end Turns

/-- The agenda of a call during which nothing is asked for: the reading, behind a reply perhaps. -/
inductive Waiting : List Task → Prop where
  | none : Waiting []
  | solo {task : Task} : Solo task → Waiting [task]
  | reply {first task : Task} : Reply first → Solo task → Waiting [first, task]

theorem waiting_of_brief {front : List Task} {task : Task} (brief : Brief front) (solo : Solo task) :
    Waiting (front ++ [task]) := by
  cases brief with
  | done => exact .solo solo
  | reply first => exact .reply first solo

theorem passes_waiting {s : Session} (prompt : Prompt s) {task : Task} {rest : List Task}
    (waiting : Waiting (task :: rest)) : Passes (s.step task) fun tasks => Waiting (tasks ++ rest) := by
  cases waiting with
  | solo solo =>
    cases solo with
    | called plain => exact ⟨prompt, .solo (.reading plain)⟩
    | reading plain =>
      obtain ⟨still, front, next, tasks, brief, solo⟩ :=
        @passes_receive ⟨s, .receive _ _ _, []⟩ prompt _ _ _ rfl plain
      refine ⟨still, ?_⟩
      rw [List.append_nil]
      exact tasks ▸ waiting_of_brief brief solo
    | ended => exact ⟨prompt, .none⟩
  | reply first solo =>
    obtain ⟨still, done⟩ := passes_reply prompt first
    refine ⟨still, ?_⟩
    rw [done]
    exact .solo solo

theorem waiting_of_run (n : Nat) {s : Session} {tasks : List Task} (prompt : Prompt s)
    (waiting : Waiting tasks) : Waiting (s.run n tasks).tasks := by
  induction n generalizing s tasks with
  | zero => exact waiting
  | succ n ih =>
    cases tasks with
    | nil => exact .none
    | cons task rest =>
      obtain ⟨still, next⟩ := passes_waiting prompt waiting
      exact ih still next

/-- Where handlers only reply, the agenda is down to the reading again and again. -/
theorem recurs_of_prompt {s : Session} (prompt : Prompt s) {input : List (Supply Op)} (plain : Plain input) :
    Recurs s [.perform (.serve input)] := by
  intro n
  have waiting := waiting_of_run n prompt (.solo (.called plain))
  generalize left : (s.run n [.perform (.serve input)]).tasks = agenda at waiting
  cases waiting with
  | none => exact ⟨n, Nat.le_refl n, by simp [left]⟩
  | solo => exact ⟨n, Nat.le_refl n, by simp [left]⟩
  | reply first solo =>
    obtain ⟨-, -, later⟩ := run_succ left
    rw [tasks_reply first] at later
    exact ⟨n + 1, Nat.le_succ n, by simp [later]⟩

end LanguageClient.Session
