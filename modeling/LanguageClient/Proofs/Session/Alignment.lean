import LanguageClient.Proofs.Session.Idle
import LanguageClient.Proofs.Session.Serving
import Mathlib.Order.Nat

/-! A stream of written frames stays aligned.

The frames that were written arrive one by one, in order, whatever their bodies look like,
in whatever parts the stream comes and whatever else is done meanwhile; then the call comes
back. Of a stream that is cut off, no other body is routed.
-/

set_option autoImplicit false
namespace LanguageClient

open LanguageClient.Frame (Arrival Delivers)

theorem Moment.routes?_eq (m : Moment) : m.routes? = m.arrival?.bind Arrival.body? := by
  unfold Moment.routes?
  rcases m.arrival? with _ | arrival
  · rfl
  · cases arrival <;> rfl

namespace Session

/-- What a call has made so far of a stream of written frames. -/
structure Aligned (bodies : List (List UInt8)) (whole : Prop) (limit : Nat) (rest : List Task)
    (ms : List Moment) (agenda : List Task) : Prop where
  /-- What arrives is met in the same step: a body is routed as it is, an oversized one reported. -/
  met : ∀ m ∈ own rest.length ms, ∀ arrival, m.arrival? = some arrival → ∃ notes, m.turn =
    ((m.session.noted notes).andThen (·.meet arrival)).andThen (readOn (m.resumed arrival))
  routed : (own rest.length ms).filterMap Moment.routes? <+:
    bodies.filter (·.length ≤ Frame.bodyLimit)
  arrived : whole → arrivals rest.length ms <+: bodies.map Frame.landing ++ [.ended]
  returned : whole → ∀ outcome later, agenda = .stopped outcome :: later →
    later.length = rest.length →
      outcome = .ok () ∧ arrivals rest.length ms = bodies.map Frame.landing ++ [.ended]
  bounded : (own rest.length ms).length ≤ limit

section Course

variable {bodies : List (List UInt8)} {expected : List Arrival} {limit : Nat}
  {rest agenda : List Task} {ms : List Moment} {input : List (Supply Op)}

theorem routes_eq (depth : Nat) (ms : List Moment) :
    (own depth ms).filterMap Moment.routes? = (arrivals depth ms).filterMap Arrival.body? := by
  rw [arrivals, List.filterMap_filterMap]
  congr 1
  funext m
  exact m.routes?_eq

theorem closing_ended {outcome : Except StreamError Unit} (ended : closing outcome = .ended) :
    outcome = .ok () := by
  cases outcome with
  | ok => rfl
  | error e => cases ended

theorem Standing.ended {outcome : Except StreamError Unit} {later : List Task}
    (h : Standing expected limit rest ms (.stopped outcome :: later))
    (level : later.length = rest.length) :
    arrivals rest.length ms = expected ∧ expected.getLast? = some (closing outcome) := by
  obtain ⟨front, task, left, budget, split, stands, met, -⟩ := h
  cases front with
  | nil =>
    obtain ⟨rfl, -⟩ := List.cons.inj split
    cases stands with
    | ended last =>
      rw [List.append_nil] at met
      exact ⟨met, met ▸ last⟩
  | cons first front =>
    have behind : later = front ++ task :: rest := (List.cons.inj split).2
    rw [behind, List.length_append, List.length_cons] at level
    omega

theorem aligned_of_standing {whole : Prop} (h : Standing expected limit rest ms agenda)
    (prefixed : expected.filterMap Arrival.body? <+: (bodies.map Frame.landing).filterMap Arrival.body?)
    (complete : whole → expected = bodies.map Frame.landing ++ [.ended]) :
    Aligned bodies whole limit rest ms agenda := by
  obtain ⟨front, task, left, budget, split, stands, met, enough⟩ := id h
  have first : arrivals rest.length ms <+: expected := ⟨left, met⟩
  constructor
  · exact fun _ _ _ arrived => turn_of_arrival arrived
  · rw [routes_eq, ← Frame.body?_landing]
    exact (first.filterMap Arrival.body?).trans prefixed
  · intro all
    rwa [complete all] at first
  · rintro all outcome later rfl level
    obtain ⟨everything, last⟩ := h.ended level
    rw [complete all, List.getLast?_concat] at last
    exact ⟨closing_ended (Option.some.inj last).symm, everything.trans (complete all)⟩
  · omega

end Course

/-! A call comes back. -/

/-- Again and again a run has at most one task left: nothing it begins goes on for ever. -/
def Recurs (s : Session) (tasks : List Task) : Prop :=
  ∀ n, ∃ m, n ≤ m ∧ (s.run m tasks).tasks.length ≤ 1

section Return

variable {s : Session} {tasks : List Task} {input : List (Supply Op)} {expected : List Arrival}
  {limit : Nat}

theorem mem_trail {n : Nat} {m : Moment} (member : m ∈ trail n s tasks) :
    ∃ i, i < n ∧ (s.run i tasks).tasks = m.task :: m.later := by
  induction n generalizing s tasks with
  | zero => cases member
  | succ n ih =>
    cases tasks with
    | nil => cases member
    | cons task rest =>
      rcases List.mem_cons.mp member with rfl | later
      · exact ⟨0, Nat.succ_pos n, rfl⟩
      · obtain ⟨i, before, left⟩ := ih later
        exact ⟨i + 1, Nat.succ_lt_succ before, left⟩

theorem unreturned_trail {n : Nat}
    (running : ∀ i, i < n → ∀ outcome, (s.run i tasks).tasks ≠ [.stopped outcome]) :
    Unreturned 0 (trail n s tasks) := by
  intro m member level outcome same
  obtain ⟨i, before, left⟩ := mem_trail member
  rw [same, List.length_eq_zero_iff.mp level] at left
  exact running i before outcome left

theorem busier (standing : ∀ n, Standing expected limit [] (trail n s tasks) (s.run n tasks).tasks)
    (recurs : Recurs s tasks) (count : Nat) : ∃ n, count ≤ (own 0 (trail n s tasks)).length := by
  induction count with
  | zero => exact ⟨0, Nat.zero_le _⟩
  | succ count ih =>
    obtain ⟨n, many⟩ := ih
    obtain ⟨m, later, short⟩ := recurs n
    obtain ⟨front, task, left, budget, split, -⟩ := standing m
    -- The task that is left is the call's own, so one more step is its own as well.
    have alone : front = [] := by
      rw [split, List.length_append, List.length_singleton] at short
      exact List.length_eq_zero_iff.mp (by omega)
    subst alone
    obtain ⟨trailed, -, -⟩ := run_succ split
    obtain ⟨more, rfl⟩ := Nat.exists_eq_add_of_le later
    have still : (own 0 (trail n s tasks)).length ≤ (own 0 (trail (n + more) s tasks)).length :=
      ((trail_add n more s tasks).sublist.filter _).length_le
    have level : (Moment.mk (s.run (n + more) tasks).session task []).later.length = 0 := rfl
    refine ⟨n + more + 1, ?_⟩
    rw [trailed, own_concat level, List.length_append, List.length_singleton]
    omega

theorem stops_of_recurs (smooth : Smooth input) (delivers : Delivers .start (octets input) expected)
    (recurs : Recurs s [.perform (.serve input)]) :
    ∃ n outcome, (s.run n [.perform (.serve input)]).tasks = [.stopped outcome] ∧
      Unreturned 0 (trail n s [.perform (.serve input)]) := by
  classical
  by_contra never
  have running : ∀ n, ∀ outcome, (s.run n [.perform (.serve input)]).tasks ≠ [.stopped outcome] := by
    intro n outcome stopped
    have some : ∃ n outcome, (s.run n [.perform (.serve input)]).tasks = [.stopped outcome] :=
      ⟨n, outcome, stopped⟩
    obtain ⟨outcome, first⟩ := Nat.find_spec some
    refine never ⟨Nat.find some, outcome, first, unreturned_trail fun i before outcome stopped => ?_⟩
    exact Nat.find_min some before ⟨outcome, stopped⟩
  have standing n := standing_of_course smooth delivers (Course.of_run n s _)
    (unreturned_trail fun i _ => running i)
  -- Its own steps are limited, but there would be more and more of them.
  obtain ⟨n, many⟩ := busier standing recurs (input.length + expected.length + 2)
  obtain ⟨front, task, left, budget, -, -, -, enough⟩ := standing n
  rw [List.length_nil] at enough
  omega

end Return

/-! Where nobody is attached and nothing waits, a call sets nothing off. -/

/-- Nobody takes messages, and no request waits. -/
structure Quiet (s : Session) : Prop where
  unattached : s.attached = false
  idle : ∀ c, s.transport = .connection c → c.pending = []

def Plain (input : List (Supply Op)) : Prop := ∀ op, Supply.act op ∉ input

structure Calm (turn : Turn) (most : Nat) : Prop where
  quiet : Quiet turn.session
  few : turn.tasks.length ≤ most

section Quiet

variable {s : Session}

theorem quiet_connection (quiet : Quiet s) {c : Connection} (none : c.pending = []) :
    Quiet { s with transport := .connection c } := by
  refine ⟨quiet.unattached, fun d same => ?_⟩
  obtain rfl : c = d := Transport.connection.inj same
  exact none

theorem calm_writeResponse (quiet : Quiet s) (number : Nat) (r : Rpc.Response) :
    Calm (s.writeResponse number r) 0 := by
  cases carrier : s.transport with
  | scripted peer =>
    simp only [writeResponse, carrier]
    exact ⟨quiet, Nat.le_refl 0⟩
  | connection c =>
    have kept := (write_line c (.response number r.id) r.write).1.trans (quiet.idle c carrier)
    rcases written : c.write (.response number r.id) r.write with ⟨d, events, outcome⟩
    rw [written] at kept
    simp only [writeResponse, carrier, written]
    exact ⟨quiet_connection quiet kept, Nat.le_refl 0⟩

theorem calm_refuseEarly (quiet : Quiet s) (id : Rpc.RequestId) (method : String) :
    Calm (s.refuseEarly id method) 0 := by
  unfold refuseEarly
  have admitted : Quiet s.admitted := ⟨quiet.unattached, quiet.idle⟩
  have calm := calm_writeResponse admitted s.received (.failure id
    (.new Rpc.RpcError.methodNotFound ("no handler attached for '" ++ method ++ "'")))
  exact ⟨calm.quiet, calm.few⟩

theorem calm_route (quiet : Quiet s) (body : List UInt8) : Calm (s.route body) 0 := by
  have bare (events : List Event) : Calm { session := s, events } 0 := ⟨quiet, Nat.le_refl 0⟩
  have alone : ¬ (s.attached = true) := by simp [quiet.unattached]
  unfold route
  split
  · rw [reportFrame, if_neg alone]
    exact bare _
  · unfold correlate
    cases carrier : s.transport with
    | scripted peer => exact bare _
    | connection c =>
      simp only [Connection.take?, quiet.idle c carrier, List.lookup_nil, Option.map_none]
      exact bare _
  · exact bare _
  · rw [if_neg alone]
    exact calm_refuseEarly quiet _ _
  · rw [if_neg alone]
    exact bare _

theorem calm_meet (quiet : Quiet s) {arrival : Arrival} (going : arrival.final = false) :
    Calm (s.meet arrival) 0 := by
  cases arrival with
  | frame body => exact calm_route quiet body
  | rejected e =>
    simp only [meet, reportFrame, quiet.unattached, Bool.false_eq_true, if_false]
    exact ⟨quiet, Nat.le_refl 0⟩
  | starved phase => exact ⟨quiet, Nat.le_refl 0⟩
  | _ => cases going

theorem calm_stop (quiet : Quiet s) (outcome : Except StreamError Unit) : Calm (s.stop outcome) 1 := by
  simp only [stop, Turn.andThen, close]
  cases carrier : s.transport with
  | scripted peer =>
    refine ⟨⟨quiet.unattached, fun c same => ?_⟩, Nat.le_refl 1⟩
    rw [carrier] at same
    cases same
  | connection c =>
    simp only [quiet.idle c carrier]
    exact ⟨quiet_connection quiet rfl, Nat.le_refl 1⟩

theorem alone_of_calm {turn : Turn} {task : Task} {before : List Task} (calm : Calm turn 1)
    (tasks : turn.tasks = before ++ [task]) : turn.tasks = [task] := by
  have few := calm.few
  rw [tasks, List.length_append, List.length_singleton] at few
  have none : before = [] := List.length_eq_zero_iff.mp (by omega)
  rw [tasks, none, List.nil_append]

/-- The task of a call during which nothing is asked for. -/
inductive Solo : Task → Prop where
  | called {input : List (Supply Op)} : Plain input → Solo (.perform (.serve input))
  | reading {phase : Frame.Phase} {bytes : List UInt8} {input : List (Supply Op)} :
      Plain input → Solo (.receive phase bytes input)
  | ended {outcome : Except StreamError Unit} : Solo (.stopped outcome)

theorem solo_of_none {m : Moment} {phase : Frame.Phase} {bytes : List UInt8} {input : List (Supply Op)}
    (reading : m.task = .receive phase bytes input) (plain : Plain input) (none : m.arrival? = none) :
    m.turn.session = m.session ∧ ∃ task, Solo task ∧ m.turn.tasks = [task] := by
  obtain ⟨notes, starving, starved, turn, interrupted⟩ := turn_of_none reading none
  rw [turn]
  cases input with
  | nil => exact absurd starved (Frame.next_ended _ _ _)
  | cons supply input =>
    have later : Plain input := fun op member => plain op (List.mem_cons_of_mem _ member)
    cases supply with
    | bytes bytes => exact ⟨rfl, _, .reading later, rfl⟩
    | act op => exact absurd List.mem_cons_self (plain op)
    | failure fault =>
      obtain rfl := interrupted fault input rfl
      exact ⟨rfl, _, .reading later, rfl⟩

theorem calm_receive {m : Moment} (quiet : Quiet m.session) {phase : Frame.Phase}
    {bytes : List UInt8} {input : List (Supply Op)} (reading : m.task = .receive phase bytes input)
    (plain : Plain input) :
    Quiet m.turn.session ∧ ∃ task, Solo task ∧ m.turn.tasks = [task] := by
  cases arrived : m.arrival? with
  | some arrival =>
    obtain ⟨notes, turn⟩ := turn_of_arrival arrived
    rw [turn, noted_meet_tasks]
    cases going : arrival.final with
    | true =>
      obtain ⟨outcome, -, stops⟩ := meet_final m.session going
      have calm := calm_stop quiet outcome
      have alone := alone_of_calm calm (stop_tasks m.session outcome)
      rw [← stops] at calm alone
      rw [Moment.resumed_of_final going, List.append_nil]
      exact ⟨calm.quiet, .stopped outcome, .ended, alone⟩
    | false =>
      have calm := calm_meet quiet going
      have none : (m.session.meet arrival).tasks = [] :=
        List.length_eq_zero_iff.mp (Nat.le_zero.mp calm.few)
      rw [Moment.resumed_of_going reading going, none, List.nil_append]
      exact ⟨calm.quiet, _, .reading plain, rfl⟩
  | none =>
    obtain ⟨still, next, solo, tasks⟩ := solo_of_none reading plain arrived
    exact ⟨still.symm ▸ quiet, next, solo, tasks⟩

theorem recurs_of_quiet (quiet : Quiet s) {input : List (Supply Op)} (plain : Plain input) :
    Recurs s [.perform (.serve input)] := by
  have alone (n : Nat) : ∀ s : Session, ∀ tasks : List Task, Quiet s → (∀ task ∈ tasks, Solo task) →
      tasks.length ≤ 1 → (s.run n tasks).tasks.length ≤ 1 := by
    induction n with
    | zero => exact fun _ _ _ _ short => short
    | succ n ih =>
      intro s tasks quiet solo short
      match tasks with
      | [] => exact Nat.zero_le 1
      | [task] =>
        cases solo task List.mem_cons_self with
        | called plain =>
          exact ih s [.receive .start [] _] quiet (by simpa using .reading plain) (Nat.le_refl 1)
        | @reading phase bytes input plain =>
          obtain ⟨still, next, solo, tasks⟩ :=
            calm_receive (m := ⟨s, .receive phase bytes input, []⟩) quiet rfl plain
          have rest := ih _ [next] still (by simpa using solo) (Nat.le_refl 1)
          rw [← tasks, ← List.append_nil (Moment.turn _).tasks] at rest
          exact rest
        | ended => exact ih s [] quiet (by simp) (Nat.zero_le 1)
      | first :: second :: more => simp at short
  refine fun n => ⟨n, Nat.le_refl n, alone n s _ quiet ?_ (Nat.le_refl 1)⟩
  simpa using Solo.called plain

end Quiet

/-- Frames written one after the other are read one by one, and a call that reads nothing
else comes back when they are over. -/
theorem aligned_of_course {bodies : List (List UInt8)} (fits : ∀ body ∈ bodies, body.length < 2 ^ 64)
    {w v : Frame.Writer} (fresh : w.passed = []) (wrote : w.Wrote bodies v) {k : Nat}
    {input : List (Supply Op)} (smooth : Smooth input) (supplied : octets input = v.sink.taken.take k) :
    (∀ s rest ms t agenda, Course s (.perform (.serve input) :: rest) ms t agenda →
      Unreturned rest.length ms → Aligned bodies (v.sink.taken.length ≤ k)
        (input.length + bodies.length + 2) rest ms agenda) ∧
      ∀ s, Recurs s [.perform (.serve input)] → ∃ n outcome,
        (s.execute n (.serve input)).tasks = [] ∧
          (s.execute n (.serve input)).events.getLast? = some (.served outcome) ∧
            (v.sink.taken.length ≤ k → outcome = .ok ()) := by
  obtain ⟨taken, empty⟩ := List.append_eq_nil_iff.mp fresh
  have stream := wrote.taken empty
  rw [taken, List.nil_append] at stream
  obtain ⟨expected, delivers, few, prefixed, complete⟩ := Frame.delivers_frames fits k
  rw [← stream, ← supplied] at delivers
  rw [← stream] at complete
  have aligned (s rest ms t agenda) (course : Course s (.perform (.serve input) :: rest) ms t agenda)
      (unreturned : Unreturned rest.length ms) :
      Aligned bodies (v.sink.taken.length ≤ k) (input.length + expected.length + 1) rest ms agenda :=
    aligned_of_standing (standing_of_course smooth delivers course unreturned) prefixed complete
  constructor
  · intro s rest ms t agenda course unreturned
    have result := aligned s rest ms t agenda course unreturned
    exact { result with bounded := result.bounded.trans (by omega) }
  · intro s recurs
    obtain ⟨n, outcome, stopped, unreturned⟩ := stops_of_recurs smooth delivers recurs
    obtain ⟨trailed, -, left⟩ := run_succ stopped
    refine ⟨n + 1, outcome, left, ?_, fun all => ?_⟩
    · rw [execute, ← seen_trail, trailed, seen_append, seen_singleton]
      exact List.getLast?_concat
    · exact ((aligned s [] _ _ _ (Course.of_run n s _) unreturned).returned all outcome [] stopped rfl).1

/-- Two frames, the first of them no message, read by a session that nobody uses. -/
theorem aligned_two_frames : ∃ v : Frame.Writer, Frame.Writer.Wrote {} [[10, 13, 10], []] v ∧
    ∃ n, ((overStream {}).execute n (.serve [.bytes v.sink.taken])).tasks = [] ∧
      ((overStream {}).execute n (.serve [.bytes v.sink.taken])).events.getLast? =
        some (.served (.ok ())) := by
  obtain ⟨v, wrote⟩ := Frame.Writer.wrote_generous (w := {}) ⟨rfl, rfl⟩ [[10, 13, 10], []]
  have supplied : octets [.bytes v.sink.taken] = v.sink.taken.take v.sink.taken.length := by
    rw [List.take_length]
    exact List.append_nil _
  have fits : ∀ body ∈ ([[10, 13, 10], []] : List (List UInt8)), body.length < 2 ^ 64 := by simp
  have smooth : Smooth [.bytes v.sink.taken] := by simp [Smooth]
  have quiet : Quiet (overStream {}) := ⟨rfl, fun c same => by cases same; rfl⟩
  have plain : Plain [.bytes v.sink.taken] := by simp [Plain]
  obtain ⟨-, returns⟩ := aligned_of_course fits rfl wrote smooth supplied
  obtain ⟨n, outcome, done, last, fine⟩ := returns _ (recurs_of_quiet quiet plain)
  rw [fine (Nat.le_refl _)] at last
  exact ⟨v, wrote, n, done, last⟩

end Session
end LanguageClient
