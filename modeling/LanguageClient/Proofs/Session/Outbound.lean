import LanguageClient.Proofs.Session.Ledger
import LanguageClient.Proofs.Session.Sending

/-! What each step does to the line of a session over a byte stream.

Five kinds of steps matter: a request is sent, a notification is sent, a response is
routed, a stream ends, a completion is called. All others are idle.
-/

set_option autoImplicit false
namespace LanguageClient.Session

open Json (Value)
open Rpc (RequestId Outcome)

/-- A step that may change the line, complete something and leave completions to call. -/
structure Moves (s : Session) (turn : Turn) (l : Line) (calls : List (Nat × Completed))
    (tasks : List Task) : Prop where
  line : turn.session.line = some l
  calls : turn.events.filterMap Event.completion? = calls
  tasks : turn.tasks = tasks
  held : turn.session.held = s.held

variable {s : Session} {c : Connection}

theorem line_of_connection (carrier : s.transport = .connection c) :
    s.line = some ⟨c.pending, c.closed, c.nextId, s.sends⟩ := by
  simp [line, carrier]

theorem connection_of_line {l : Line} (h : s.line = some l) :
    ∃ c, s.transport = .connection c ∧ l = ⟨c.pending, c.closed, c.nextId, s.sends⟩ := by
  cases carrier : s.transport with
  | scripted peer => simp [line, carrier] at h
  | connection c =>
    rw [line_of_connection carrier] at h
    exact ⟨c, rfl, (Option.some.inj h).symm⟩

theorem lookup_enter (c : Connection) (id : RequestId) (completion : Completion) :
    (c.enter id completion).pending.lookup id = some completion := by
  have missing : (c.pending.filter fun entry => entry.1 != id).lookup id = none := by
    refine List.lookup_eq_none_iff.mpr fun entry member => ?_
    have other := (List.mem_filter.mp member).2
    rw [bne_comm] at other
    simpa using other
  simp [Connection.enter, List.lookup_append, missing]

theorem filter_enter (c : Connection) (id : RequestId) (completion : Completion) :
    (c.enter id completion).pending.filter (fun entry => entry.1 != id) =
      c.pending.filter fun entry => entry.1 != id := by
  simp [Connection.enter, List.filter_append]

theorem moves_refused (carrier : s.transport = .connection c) (empty : c.closed = true → c.pending = [])
    {method : String} {params : Option Value} (completion : Completion) {e : TransportError}
    (refused : c.refusal? (Rpc.writeRequest (.number c.nextId.toInt) method params) = some e) :
    Moves s (s.transmitRequest method params completion)
      ⟨c.pending.filter (fun entry => entry.1 != .number c.nextId.toInt), c.closed, c.nextId + 1, s.sends⟩ []
      [.finish completion (.error e)] := by
  simp only [transmitRequest, carrier]
  cases closed : c.closed with
  | true =>
    simp only [Connection.refusal?, closed, if_true, Option.some.injEq] at refused
    subst refused
    exact ⟨by simp [line, empty closed], rfl, rfl, rfl⟩
  | false =>
    rcases framed : c.writer.frame (Json.octets (Rpc.writeRequest (.number c.nextId.toInt) method params))
      with ⟨w, fault | _⟩
    · -- The entry made for the request is the one that is taken off again.
      have entered := lookup_enter { c with nextId := c.nextId + 1 } (.number c.nextId.toInt) completion
      have left := filter_enter { c with nextId := c.nextId + 1 } (.number c.nextId.toInt) completion
      simp only [Connection.enter] at entered left
      simp only [Connection.refusal?, closed, framed] at refused
      simp only [Connection.enter, Connection.write, framed, Connection.take?, entered, left, Option.map_some]
      cases refused
      exact ⟨by simp [line], rfl, rfl, rfl⟩
    · simp [Connection.refusal?, closed, framed] at refused

theorem moves_accepted (carrier : s.transport = .connection c) {method : String}
    {params : Option Value} (completion : Completion)
    (accepted : c.refusal? (Rpc.writeRequest (.number c.nextId.toInt) method params) = none) :
    c.closed = false ∧
      Moves s (s.transmitRequest method params completion)
        ⟨(c.enter (.number c.nextId.toInt) completion).pending, c.closed, c.nextId + 1, s.sends⟩ [] [] := by
  cases closed : c.closed with
  | true => simp [Connection.refusal?, closed] at accepted
  | false =>
    rcases framed : c.writer.frame (Json.octets (Rpc.writeRequest (.number c.nextId.toInt) method params))
      with ⟨w, fault | _⟩
    · simp [Connection.refusal?, closed, framed] at accepted
    · refine ⟨rfl, ?_⟩
      simp only [transmitRequest, carrier, closed, Connection.enter, Connection.write, framed]
      exact ⟨by simp [line], rfl, rfl, rfl⟩

theorem Moves.after {t : Session} {l : Line} {calls : List (Nat × Completed)} {tasks : List Task}
    {events : List Event} {more : Session → Turn} (silent : events.filterMap Event.completion? = [])
    (kept : t.held = s.held) (h : Moves t (more t) l calls tasks) :
    Moves s (({ session := t, events := events } : Turn).andThen more) l calls tasks where
  line := h.line
  calls := by simp [Turn.andThen, silent, h.calls]
  tasks := by simp [Turn.andThen, h.tasks]
  held := h.held.trans kept

theorem asking_eq {method : String} {params : Option Value} {purpose : Purpose} {after : List Op}
    (carrier : s.transport = .connection c) :
    s.asking? method params purpose after = some ⟨.number c.nextId.toInt, ⟨s.sends + 1, purpose, after⟩,
      c.refusal? (Rpc.writeRequest (.number c.nextId.toInt) method params)⟩ := by
  simp [asking?, carrier]

theorem turn_of_asks {m : Moment} {a : Asking} (asked : m.asks? = some a) :
    ∃ records method params purpose after, m.turn = m.session.requesting records method params purpose after ∧
      m.session.asking? method params purpose after = some a := by
  obtain ⟨s, task, later⟩ := m
  unfold Moment.asks? at asked
  split at asked
  · rename_i method params after same
    subst same
    exact ⟨[], method, params, .raw, after, s.sendRawRequest_eq method params after, asked⟩
  · rename_i method params result after same
    subst same
    split at asked
    · rename_i message built
      obtain ⟨records, turn⟩ := s.sendRequest_built built result after
      exact ⟨records, method.name, message.params?, .typed method result, after, turn, asked⟩
    · cases asked
  · cases asked

theorem turn_of_notifies {m : Moment} {number : Nat} {outcome : Completed}
    (notified : m.notifies? = some (number, outcome)) :
    ∃ front back method params wrap after,
      m.turn = m.session.announcing front back method params wrap after ∧
        m.session.notifying? method params wrap = some (number, outcome) ∧
          (wrap = .broken ∨ wrap = fun e => .failed (.notificationNotSent e)) := by
  obtain ⟨s, task, later⟩ := m
  unfold Moment.notifies? at notified
  split at notified
  · rename_i method params after same
    subst same
    exact ⟨[], [], method, params, _, after, s.sendRawNotification_eq method params after, notified, .inl rfl⟩
  · rename_i method params after same
    subst same
    split at notified
    · rename_i message built
      obtain ⟨front, back, turn⟩ := s.sendNotification_built built after
      exact ⟨front, back, method.name, message.params?, _, after, turn, notified, .inr rfl⟩
    · cases notified
  · cases notified

/-- A request sent gets the next id and the next number, and is refused or waits; nothing else waits
under its id any longer. -/
structure Sends (s : Session) (c : Connection) (turn : Turn) (a : Asking) : Prop where
  id : a.id = .number c.nextId.toInt
  number : a.completion.number = s.sends + 1
  refused : ∀ e, a.refusal = some e →
    Moves s turn ⟨c.pending.filter (fun entry => entry.1 != a.id), c.closed, c.nextId + 1, s.sends + 1⟩ []
      [.finish a.completion (.error e)]
  accepted : a.refusal = none → c.closed = false ∧
    Moves s turn ⟨c.pending.filter (fun entry => entry.1 != a.id) ++ [(a.id, a.completion)], c.closed, c.nextId + 1,
      s.sends + 1⟩ [] []

theorem sends_of_asks {m : Moment} {a : Asking} (asked : m.asks? = some a)
    (carrier : m.session.transport = .connection c) (empty : c.closed = true → c.pending = []) :
    Sends m.session c m.turn a := by
  obtain ⟨records, method, params, purpose, after, turn, asked⟩ := turn_of_asks asked
  have counted : m.session.counted.transport = .connection c := carrier
  have silent : (records.map Event.log).filterMap Event.completion? = [] := filterMap_records Event.completion? (fun _ => rfl) records
  rw [asking_eq carrier, Option.some.injEq] at asked
  subst asked
  rw [turn]
  refine ⟨rfl, rfl, fun e refused => ?_, fun accepted => ?_⟩
  · dsimp only at refused
    refine Moves.after silent ?_ (moves_refused counted empty _ refused)
    rfl
  · dsimp only at accepted
    obtain ⟨opened, moved⟩ := moves_accepted counted ⟨m.session.counted.sends, purpose, after⟩ accepted
    refine ⟨opened, Moves.after silent ?_ moved⟩
    rfl

theorem transmitNotification_spec (carrier : s.transport = .connection c) (method : String)
    (params : Option Value) :
    (s.transmitNotification method params).1.line = s.line ∧
      (s.transmitNotification method params).1.held = s.held ∧
      (s.transmitNotification method params).2.1.filterMap Event.completion? = [] ∧
      (s.transmitNotification method params).2.2 =
        match c.refusal? (Rpc.writeNotification method params) with
          | none => .ok ()
          | some e => .error e := by
  simp only [transmitNotification, carrier, Connection.refusal?]
  cases closed : c.closed with
  | true => exact ⟨rfl, rfl, rfl, rfl⟩
  | false =>
    rcases framed : c.writer.frame (Json.octets (Rpc.writeNotification method params))
      with ⟨w, fault | _⟩ <;>
      simp [Connection.write, framed, line, carrier, closed, Event.completion?, Frame.Writer.collect]

theorem notifying_eq {method : String} {params : Option Value} {wrap : TransportError → Completed}
    (carrier : s.transport = .connection c) :
    s.notifying? method params wrap = some (s.sends + 1,
      concluded wrap (c.refusal? (Rpc.writeNotification method params))) := by
  simp [notifying?, carrier]

theorem moves_of_notifies {m : Moment} {number : Nat} {outcome : Completed}
    (sent : m.notifies? = some (number, outcome)) (carrier : m.session.transport = .connection c) :
    number = m.session.sends + 1 ∧ ∃ after : List Op, Moves m.session m.turn
      ⟨c.pending, c.closed, c.nextId, m.session.sends + 1⟩ [(number, outcome)]
      (after.map .perform) := by
  obtain ⟨front, back, method, params, wrap, after, turn, sent, -⟩ := turn_of_notifies sent
  have counted : m.session.counted.transport = .connection c := carrier
  obtain ⟨kept, held, silent, ended⟩ := transmitNotification_spec counted method params
  rw [notifying_eq carrier, Option.some.injEq, Prod.mk.injEq] at sent
  obtain ⟨rfl, rfl⟩ := sent
  refine ⟨rfl, after, ?_⟩
  rw [turn]
  refine ⟨kept.trans (line_of_connection counted), ?_, rfl, held⟩
  simp only [announcing, List.filterMap_append, silent, ended,
    filterMap_records Event.completion? fun _ => rfl]
  cases c.refusal? (Rpc.writeNotification method params) <;> rfl

/-! Reading a stream. -/

theorem idle_notes (s : Session) (notes : List Frame.Note) :
    Idle s { session := s, events := notes.map noteEvent } :=
  .quiet rfl rfl (filterMap_notes Event.completion? (fun _ => rfl) notes)

theorem idle_goOn (s : Session) (phase : Frame.Phase) (bytes : List UInt8)
    (input : List (Supply Op)) : Idle s { session := s, tasks := [.receive phase bytes input] } where
  line := rfl
  silent := rfl
  tasks := by simp [Task.idle]
  held := fun _ member _ _ => member

theorem idle_supply (s : Session) (phase : Frame.Phase) {input : List (Supply Op)}
    (going : ∀ fault rest, input = .failure fault :: rest → fault = .interrupted) :
    Idle s (s.supply phase input) := by
  rcases input with _ | ⟨supplied, rest⟩
  · exact s.idle_goOn phase [] []
  · cases supplied with
    | bytes bytes => exact s.idle_goOn phase bytes rest
    | failure fault =>
      rw [supply, if_pos (going fault rest rfl)]
      exact s.idle_goOn phase [] rest
    | act op =>
      exact {
        line := rfl
        silent := rfl
        tasks := by simp [supply, Task.idle]
        held := fun _ member _ _ => member }

theorem idle_route (s : Session) {body : List UInt8}
    (other : ∀ id outcome, Rpc.Message.ofBytes body ≠ .ok (.response (some id) outcome)) :
    Idle s (s.route body) := by
  unfold route
  split
  · exact s.idle_reportFrame _
  · rename_i id outcome same
    exact absurd same (other id outcome)
  · exact .quiet rfl rfl rfl
  · split
    · exact s.idle_handleRequest _ _ _ _
    · exact s.idle_refuseEarly _ _
  · split
    · exact s.idle_handleNotification _ _ _
    · exact .quiet rfl rfl rfl

theorem idle_meet (s : Session) {arrival : Frame.Arrival}
    (other : ∀ body id outcome, arrival = .frame body →
      Rpc.Message.ofBytes body ≠ .ok (.response (some id) outcome))
    (going : arrival.final = false) : Idle s (s.meet arrival) := by
  cases arrival with
  | frame body => exact s.idle_route fun id outcome => other body id outcome rfl
  | rejected e => exact s.idle_reportFrame e
  | failed e => cases going
  | ended => cases going
  | starved phase => exact .quiet rfl rfl rfl

theorem idle_readOn (s : Session) {tail : List Task}
    (reading : ∀ task ∈ tail, ∃ phase bytes input, task = .receive phase bytes input) :
    Idle s (readOn tail s) where
  line := rfl
  silent := rfl
  tasks := by
    intro task member
    obtain ⟨phase, bytes, input, rfl⟩ := reading task member
    rfl
  held := fun _ member _ _ => member

/-- A step of a reading is idle when what arrives is met idly. -/
theorem idle_of_arrival {m : Moment} {arrival : Frame.Arrival} (arrived : m.arrival? = some arrival)
    (met : Idle m.session (m.session.meet arrival)) : Idle m.session m.turn := by
  obtain ⟨notes, turn⟩ := turn_of_arrival arrived
  rw [turn]
  exact ((idle_notes _ notes).andThen met).andThen (idle_readOn _ fun _ => Moment.reads_of_resumed)

theorem idle_receive {m : Moment} {phase : Frame.Phase} {bytes : List UInt8}
    {input : List (Supply Op)} (reading : m.task = .receive phase bytes input)
    (deaf : m.hears? = none) (going : m.ends = false) : Idle m.session m.turn := by
  cases arrived : m.arrival? with
  | some arrival =>
    refine idle_of_arrival arrived (idle_meet _ ?_ ?_)
    · rintro body id outcome rfl same
      rw [Moment.hears?_eq_some.mpr ⟨body, arrived, same⟩] at deaf
      cases deaf
    · rw [← going, Moment.ends_of_arrival arrived]
  | none =>
    obtain ⟨notes, starving, -, turn, interrupted⟩ := turn_of_none reading arrived
    rw [turn]
    exact (m.session.idle_notes notes).andThen (m.session.idle_supply starving interrupted)

theorem moves_correlate (carrier : s.transport = .connection c) {id : RequestId}
    {completion : Completion} (found : c.pending.lookup id = some completion) (outcome : Outcome) :
    Moves s (s.correlate id outcome)
      ⟨c.pending.filter (fun entry => entry.1 != id), c.closed, c.nextId, s.sends⟩ []
      [.finish completion (.ok outcome)] := by
  simp only [correlate, carrier, Connection.take?, found, Option.map_some]
  exact ⟨by simp [line], rfl, rfl, rfl⟩

theorem idle_correlate (carrier : s.transport = .connection c) {id : RequestId}
    (missing : c.pending.lookup id = none) (outcome : Outcome) : Idle s (s.correlate id outcome) := by
  simp only [correlate, carrier, Connection.take?, missing, Option.map_none]
  exact .quiet rfl rfl rfl

theorem Moves.reading {l : Line} {tasks : List Task} {arrival : Frame.Arrival}
    (h : Moves s (s.meet arrival) l [] tasks) (notes : List Frame.Note) (tail : List Task) :
    Moves s (((s.noted notes).andThen (·.meet arrival)).andThen (readOn tail)) l [] (tasks ++ tail) where
  line := h.line
  calls := by
    simp only [Turn.andThen, noted, readOn, List.filterMap_append, h.calls,
      filterMap_notes Event.completion? fun _ => rfl]
    rfl
  tasks := by simp [Turn.andThen, noted, readOn, h.tasks]
  held := h.held

theorem moves_of_hears {m : Moment} {id : RequestId} {outcome : Outcome} {completion : Completion}
    (heard : m.hears? = some (id, outcome)) (carrier : m.session.transport = .connection c)
    (found : c.pending.lookup id = some completion) :
    ∃ tail, (∀ task ∈ tail, ∃ phase bytes input, task = Task.receive phase bytes input) ∧
      Moves m.session m.turn
        ⟨c.pending.filter (fun entry => entry.1 != id), c.closed, c.nextId, m.session.sends⟩ []
        (.finish completion (.ok outcome) :: tail) := by
  obtain ⟨body, arrived, same⟩ := Moment.hears?_eq_some.mp heard
  obtain ⟨notes, turn⟩ := turn_of_arrival arrived
  have moved : Moves m.session (m.session.meet (.frame body))
      ⟨c.pending.filter (fun entry => entry.1 != id), c.closed, c.nextId, m.session.sends⟩ []
      [.finish completion (.ok outcome)] := by
    simp only [meet, route, same]
    exact moves_correlate carrier found outcome
  refine ⟨m.resumed (.frame body), fun _ => Moment.reads_of_resumed, ?_⟩
  rw [turn]
  exact moved.reading notes _

theorem idle_of_hears {m : Moment} {id : RequestId} {outcome : Outcome}
    (heard : m.hears? = some (id, outcome)) (carrier : m.session.transport = .connection c)
    (missing : c.pending.lookup id = none) : Idle m.session m.turn := by
  obtain ⟨body, arrived, same⟩ := Moment.hears?_eq_some.mp heard
  refine idle_of_arrival arrived ?_
  simp only [meet, route, same]
  exact idle_correlate carrier missing outcome

theorem moves_stop (carrier : s.transport = .connection c) (outcome : Except StreamError Unit) :
    Moves s (s.stop outcome) ⟨[], true, c.nextId, s.sends⟩ []
      (c.pending.map (fun entry => .finish entry.2 (.error .closed)) ++ [.stopped outcome]) := by
  constructor <;> simp only [stop, Turn.andThen, close, carrier]
  · rfl
  · cases outcome <;> rfl
  · simp

theorem moves_of_ends {m : Moment} (ended : m.ends = true)
    (carrier : m.session.transport = .connection c) :
    ∃ outcome, Moves m.session m.turn ⟨[], true, c.nextId, m.session.sends⟩ []
      (c.pending.map (fun entry => .finish entry.2 (.error .closed)) ++ [.stopped outcome]) := by
  cases arrived : m.arrival? with
  | none => simp [Moment.ends, arrived] at ended
  | some arrival =>
    have final : arrival.final = true := (Moment.ends_of_arrival arrived).symm.trans ended
    obtain ⟨notes, turn⟩ := turn_of_arrival arrived
    have moved : ∃ outcome, Moves m.session (m.session.meet arrival)
        ⟨[], true, c.nextId, m.session.sends⟩ []
        (c.pending.map (fun entry => .finish entry.2 (.error .closed)) ++ [.stopped outcome]) := by
      cases arrival with
      | failed e => exact ⟨_, moves_stop carrier (.error e)⟩
      | ended => exact ⟨_, moves_stop carrier (.ok ())⟩
      | _ => cases final
    obtain ⟨outcome, moved⟩ := moved
    refine ⟨outcome, ?_⟩
    rw [turn]
    simpa [Moment.resumed_of_final final] using moved.reading notes (m.resumed arrival)

/-! Calling a completion, and everything else. -/

theorem silent_settle (method : ClientRequest) (result : Schema)
    (outcome : Except TransportError Outcome) :
    (settle method result outcome).1.filterMap Event.completion? = [] := by
  unfold settle
  repeat' split
  all_goals rfl

theorem report_of_settle (c : Completion) {method : ClientRequest} {result : Schema}
    (typed : c.purpose = .typed method result) (outcome : Except TransportError Outcome) :
    (settle method result outcome).2 = c.report outcome := by
  rcases outcome with e | (e | v)
  · simp only [settle, Completion.report, typed]
  · simp only [settle, Completion.report, typed]
  · simp only [settle, Completion.report, typed]
    cases result.decode v <;> rfl

theorem report_of_raw (c : Completion) (raw : c.purpose = .raw) (outcome : Except TransportError Outcome) :
    rawOutcome outcome = c.report outcome := by
  rcases outcome with e | (e | v) <;> simp only [rawOutcome, Completion.report, raw]

theorem moves_finish (carrier : s.transport = .connection c) (completion : Completion)
    (outcome : Except TransportError Outcome) :
    Moves s (s.finish completion outcome) ⟨c.pending, c.closed, c.nextId, s.sends⟩
      [(completion.number, completion.report outcome)] (completion.after.map .perform) := by
  constructor
  · exact line_of_connection carrier
  · cases purpose : completion.purpose with
    | typed method result =>
      simp only [finish, purpose, List.filterMap_append, silent_settle, report_of_settle completion purpose]
      rfl
    | raw =>
      simp only [finish, purpose, report_of_raw completion purpose]
      rfl
  · rfl
  · rfl

theorem Idle.within {t : Session} {turn : Turn} (h : Idle t turn) (same : t.line = s.line)
    (kept : ∀ entry ∈ t.held, entry ∈ s.held) : Idle s turn where
  line := h.line.trans same
  silent := h.silent
  tasks := h.tasks
  held := fun entry member c completion => kept entry (h.held entry member c completion)

theorem idle_complete (bare : ∀ entry ∈ s.held, ∀ c, entry.2 ≠ .completion c) (slot : Nat)
    (request : RequestReply) (notification : NotificationReply) (peer : PeerReply) :
    Idle s (s.complete slot request notification peer) := by
  have kept : ∀ entry ∈ s.held.filter (fun entry => entry.1 != slot), entry ∈ s.held :=
    fun _ member => (List.mem_filter.mp member).1
  unfold complete
  split
  · exact .quiet rfl rfl rfl
  · rename_i held found
    cases held with
    | responder r => exact (idle_answer _ r .null request).within rfl kept
    | acknowledger a => exact (idle_settleNotification _ a notification).within rfl kept
    | completion c =>
      obtain ⟨before, after, same, -⟩ := List.lookup_eq_some_iff.mp found
      have member : (slot, Held.completion c) ∈ s.held := by simp [same]
      exact absurd rfl (bare _ member c)

theorem line_setSink (reactions : List Frame.Reaction) (failing : Option StreamError) :
    (s.setSink reactions failing).line = s.line ∧ (s.setSink reactions failing).held = s.held := by
  unfold setSink
  split
  · rename_i c carrier
    simp [line, carrier]
  · exact ⟨rfl, rfl⟩

theorem updateScript_connection (carrier : s.transport = .connection c)
    (change : ScriptedPeer → ScriptedPeer) : s.updateScript change = s := by
  simp [updateScript, carrier]

theorem idle_perform (carrier : s.transport = .connection c)
    (bare : ∀ entry ∈ s.held, ∀ c, entry.2 ≠ .completion c) {op : Op} {later : List Task}
    (unasked : Moment.asks? ⟨s, .perform op, later⟩ = none)
    (unnotified : Moment.notifies? ⟨s, .perform op, later⟩ = none) : Idle s (s.perform op) := by
  cases op with
  | request id method payload => exact s.idle_handleRequest .direct id method payload
  | notify method payload => exact s.idle_handleNotification .direct method payload
  | reportError e => exact s.idle_reportError e
  | complete slot request notification peer => exact idle_complete bare slot request notification peer
  | serve input => exact s.idle_goOn .start [] input
  | setSink reactions failing =>
    obtain ⟨same, held⟩ := @line_setSink s reactions failing
    exact .quiet same held rfl
  | script reply =>
    simp only [perform, updateScript_connection carrier]
    exact .quiet rfl rfl rfl
  | failNotifications e =>
    simp only [perform, updateScript_connection carrier]
    exact .quiet rfl rfl rfl
  | rawRequest method params after => simp [Moment.asks?, asking_eq carrier] at unasked
  | rawNotification method params after => simp [Moment.notifies?, notifying_eq carrier] at unnotified
  | sendRequest method params result after =>
    simp only [Moment.asks?, asking_eq carrier] at unasked
    split at unasked
    · cases unasked
    · rename_i cause rejected
      simp only [perform, sendRequest, rejected]
      exact .quiet rfl rfl rfl
  | sendNotification method params after =>
    simp only [Moment.notifies?, notifying_eq carrier] at unnotified
    split at unnotified
    · cases unnotified
    · rename_i cause rejected
      simp only [perform, sendNotification, rejected]
      exact .quiet rfl rfl rfl
  | _ => exact .quiet rfl rfl rfl

end LanguageClient.Session
