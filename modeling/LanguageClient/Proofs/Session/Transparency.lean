import LanguageClient.Proofs.Session.Course
import LanguageClient.Proofs.Session.Revision

/-! Tracing shows what happens and changes nothing.

Behind a veil no flag of tracing can be seen, no switch of it and no record of the wire. What is
left of a session is the same in whatever way messages are traced meanwhile.
-/

set_option autoImplicit false
namespace LanguageClient

/-! Operations without switches of tracing. -/

mutual

def Op.veiled : Op → Option Op
  | .setTracing _ => none
  | .setRequestHandler ⟨name, verbose, before, reply⟩ =>
      some (.setRequestHandler ⟨name, verbose, veiledOps before, reply⟩)
  | .setNotificationHandler ⟨name, verbose, before, reply⟩ =>
      some (.setNotificationHandler ⟨name, verbose, veiledOps before, reply⟩)
  | .sendRequest method params result after => some (.sendRequest method params result (veiledOps after))
  | .sendNotification method params after => some (.sendNotification method params (veiledOps after))
  | .rawRequest method params after => some (.rawRequest method params (veiledOps after))
  | .rawNotification method params after => some (.rawNotification method params (veiledOps after))
  | .serve input => some (.serve (veiledInput input))
  | op => some op

def veiledOps : List Op → List Op
  | [] => []
  | op :: ops =>
      match op.veiled with
      | some op => op :: veiledOps ops
      | none => veiledOps ops

def veiledInput : List (Supply Op) → List (Supply Op)
  | [] => []
  | .act op :: input =>
      (match op.veiled with
        | some op => .act op
        | none => .bytes []) :: veiledInput input
  | supply :: input => supply :: veiledInput input

end

theorem veiledOps_eq (ops : List Op) : veiledOps ops = ops.filterMap Op.veiled := by
  induction ops with
  | nil => rfl
  | cons op ops ih =>
    rw [veiledOps, List.filterMap_cons]
    cases op.veiled with
    | none => exact ih
    | some op => exact congrArg (op :: ·) ih

theorem veiledInput_eq (input : List (Supply Op)) : veiledInput input = input.map (·.under Op.veiled) := by
  induction input with
  | nil => rfl
  | cons supply input ih =>
    cases supply with
    | act op =>
      rw [veiledInput, List.map_cons, ih]
      rfl
    | _ => exact congrArg (_ :: ·) ih

theorem veiled_shaped (op : Op) (stays : op.switches = false) : op.veiled = some (op.under Op.veiled) := by
  cases op with
  | setTracing on => cases stays
  | setRequestHandler handler => simp only [Op.veiled, Op.under, Handler.under, veiledOps_eq]
  | setNotificationHandler handler => simp only [Op.veiled, Op.under, Handler.under, veiledOps_eq]
  | sendRequest | sendNotification | rawRequest | rawNotification =>
    simp only [Op.veiled, Op.under, veiledOps_eq]
  | serve input => simp only [Op.veiled, Op.under, veiledInput_eq]
  | _ => rfl

/-- What is seen through the veil: no record of the wire, and no answer to whether messages
are traced. -/
def Event.veiled : Event → Option Event
  | .log record => if record.target = .wire then none else some (.log record)
  | .tracing _ => some (.tracing false)
  | event => some event

def veil : Revision where
  config c := { c with traceMessages := false }
  tracing _ := false
  event := Event.veiled
  op := Op.veiled
  configured _ := rfl
  wire on message fields := by cases on <;> rfl
  told _ := rfl
  kept e plain := by
    cases e with
    | log record =>
      have other : record.target ≠ .wire := by simpa [Event.traced] using plain
      exact if_neg other
    | tracing on => cases plain
    | _ => rfl
  shaped := veiled_shaped
  switched _ := .inr ⟨rfl, fun _ => rfl⟩

theorem veil_reads (s : Session) (method : String) (payload : List UInt8) : veil.Reads s method payload :=
  fun _ _ _ => rfl

/-! Courses by their moves. -/

/-- How a session goes on: by its next task, by a call, or by letting go of what is held. -/
inductive Move where
  | next
  | call (op : Op)
  | letGo

namespace Session

def follow (s : Session) (tasks : List Task) : List Move → Turn
  | [] => { session := s, tasks }
  | .next :: moves =>
      match tasks with
      | [] => s.follow [] moves
      | task :: rest =>
          ((s.step task).session.follow ((s.step task).tasks ++ rest) moves).behind (s.step task).events
  | .call op :: moves => s.follow (.perform op :: tasks) moves
  | .letGo :: moves =>
      follow { s with held := [] } (s.held.map (fun entry => .release entry.2) ++ tasks) moves

/-- The moves that are no switches of tracing. A move without a task does nothing either. -/
def steady (s : Session) (tasks : List Task) : List Move → List Move
  | [] => []
  | .next :: moves =>
      match tasks with
      | [] => s.steady [] moves
      | task :: rest =>
          ((veil.task task).map fun _ => Move.next).toList ++
            (s.step task).session.steady ((s.step task).tasks ++ rest) moves
  | .call op :: moves => (op.veiled.map Move.call).toList ++ s.steady (.perform op :: tasks) moves
  | .letGo :: moves =>
      .letGo :: steady { s with held := [] } (s.held.map (fun entry => .release entry.2) ++ tasks) moves

section Moves

variable {s t : Session} {tasks rest : List Task}

theorem follow_append (moves more : List Move) : s.follow tasks (moves ++ more) =
    ((s.follow tasks moves).session.follow (s.follow tasks moves).tasks more).behind
      (s.follow tasks moves).events := by
  induction moves generalizing s tasks with
  | nil => rfl
  | cons move moves ih =>
    cases move with
    | next =>
      cases tasks with
      | nil => exact ih
      | cons task rest =>
        simp only [List.cons_append, follow, ih, Turn.behind, List.append_assoc]
    | call op => exact ih
    | letGo => exact ih

theorem follow_of_course {ms : List Moment} (course : Course s tasks ms t rest) :
    ∃ moves, s.follow tasks moves = ⟨t, seen ms, rest⟩ := by
  induction course with
  | start => exact ⟨[], rfl⟩
  | @step ms u task later _ ih =>
    obtain ⟨moves, follows⟩ := ih
    refine ⟨moves ++ [.next], ?_⟩
    rw [follow_append, follows, seen_append, seen_singleton]
    simp only [follow, Turn.behind, List.append_nil, Moment.turn]
  | call op _ _ ih =>
    obtain ⟨moves, follows⟩ := ih
    refine ⟨moves ++ [.call op], ?_⟩
    rw [follow_append, follows]
    simp only [follow, Turn.behind, List.append_nil]
  | letGo _ _ ih =>
    obtain ⟨moves, follows⟩ := ih
    refine ⟨moves ++ [.letGo], ?_⟩
    rw [follow_append, follows]
    simp only [follow, Turn.behind, List.append_nil]

theorem follow_nexts (n : Nat) : s.follow tasks (List.replicate n .next) = s.run n tasks := by
  induction n generalizing s tasks with
  | zero => rfl
  | succ n ih =>
    rw [List.replicate_succ]
    cases tasks with
    | nil =>
      have finished : s.run n [] = { session := s } := by cases n <;> rfl
      exact ih.trans finished
    | cons task rest =>
      simp only [follow, ih, Turn.behind]
      rfl

end Moves

/-! Through the veil. -/

section Veil

variable {s t : Session} {tasks others : List Task}

theorem veil_step {task image : Task} (kept : veil.task task = some image) :
    veil.turn (s.step task) = (veil.session s).step image :=
  veil.step kept fun _ _ _ => veil_reads _ _ _

theorem veil_released (s : Session) :
    (s.held.map fun entry => Task.release entry.2).filterMap veil.task =
      (veil.session s).held.map fun entry => Task.release entry.2 := by
  have held : (veil.session s).held = relabel veil.held s.held := rfl
  rw [List.filterMap_map, held, relabel, List.map_map, ← List.filterMap_eq_map]
  rfl

theorem veil_called (op : Op) (tasks : List Task) : (Task.perform op :: tasks).filterMap veil.task =
    (op.veiled.map Task.perform).toList ++ tasks.filterMap veil.task := by
  have image : veil.task (.perform op) = op.veiled.map .perform := rfl
  rw [List.filterMap_cons, image]
  cases op.veiled <;> rfl

/-- Through the veil a session goes on by its steady moves alone. -/
theorem veil_follow (moves : List Move) : veil.turn (s.follow tasks moves) =
    (veil.session s).follow (tasks.filterMap veil.task) (s.steady tasks moves) := by
  induction moves generalizing s tasks with
  | nil => rfl
  | cons move moves ih =>
    cases move with
    | next =>
      cases tasks with
      | nil => exact ih
      | cons task rest =>
        have later := @ih (s.step task).session ((s.step task).tasks ++ rest)
        rw [List.filterMap_append] at later
        simp only [follow, steady]
        cases kept : veil.task task with
        | none =>
          obtain ⟨still, silent, idle⟩ := @Revision.step_dropped veil s task kept
          rw [still, idle] at later
          rw [List.filterMap_cons_none kept, silent, idle]
          exact later
        | some image =>
          have same := @veil_step s task image kept
          rw [List.filterMap_cons_some kept]
          simp only [Option.map_some, Option.toList_some, List.singleton_append, follow]
          rw [← same]
          simp only [Revision.turn, Turn.behind, List.filterMap_append] at later ⊢
          rw [← later]
    | call op =>
      simp only [follow, steady, ih, veil_called]
      cases op.veiled <;> rfl
    | letGo =>
      simp only [follow, steady, ih, List.filterMap_append, veil_released]
      rfl

end Veil

/-! Two sessions of which the veil shows the same. -/

section Match

variable {s t : Session} {tasks others : List Task}

theorem skip_switches {image : Task} {left : List Task} (agenda : tasks.filterMap veil.task = image :: left) :
    ∃ k t task rest, veil.session t = veil.session s ∧ veil.task task = some image ∧
      rest.filterMap veil.task = left ∧
        ∀ moves, s.steady tasks (List.replicate k .next ++ moves) = t.steady (task :: rest) moves := by
  induction tasks generalizing s with
  | nil => cases agenda
  | cons task rest ih =>
    cases kept : veil.task task with
    | none =>
      rw [List.filterMap_cons_none kept] at agenda
      obtain ⟨still, -, idle⟩ := @Revision.step_dropped veil s task kept
      obtain ⟨k, t, next, later, same, first, last, onward⟩ := @ih (s.step task).session agenda
      refine ⟨k + 1, t, next, later, same.trans still, first, last, fun moves => ?_⟩
      rw [List.replicate_succ, List.cons_append, ← onward, steady, kept, idle]
      rfl
    | some found =>
      rw [List.filterMap_cons_some kept] at agenda
      obtain ⟨rfl, same⟩ := List.cons.inj agenda
      exact ⟨0, s, task, rest, rfl, kept, same, fun _ => rfl⟩

theorem running_replicate (n : Nat) {moves : List Move} (running : ∀ move ∈ moves, move = .next) :
    ∀ move ∈ List.replicate n .next ++ moves, move = .next := by
  intro move member
  rcases List.mem_append.mp member with first | later
  · exact List.eq_of_mem_replicate first
  · exact running move later

theorem alike_step {u : Session} {task next : Task} {image : Task} {rest left : List Task}
    (kept : veil.task task = some image) (first : veil.task next = some image)
    (alike : veil.session s = veil.session u) (agenda : rest.filterMap veil.task = left.filterMap veil.task) :
    veil.session (s.step task).session = veil.session (u.step next).session ∧
      ((s.step task).tasks ++ rest).filterMap veil.task = ((u.step next).tasks ++ left).filterMap veil.task := by
  have step : veil.turn (s.step task) = veil.turn (u.step next) := by
    rw [veil_step kept, veil_step first, alike]
  refine ⟨congrArg Turn.session step, ?_⟩
  rw [List.filterMap_append, List.filterMap_append, agenda]
  exact congrArg (· ++ _) (congrArg Turn.tasks step)

theorem alike_released (alike : veil.session s = veil.session t)
    (agenda : tasks.filterMap veil.task = others.filterMap veil.task) :
    veil.session { s with held := [] } = veil.session { t with held := [] } ∧
      (s.held.map (fun entry => Task.release entry.2) ++ tasks).filterMap veil.task =
        (t.held.map (fun entry => Task.release entry.2) ++ others).filterMap veil.task := by
  refine ⟨congrArg (fun u : Session => { u with held := [] }) alike, ?_⟩
  rw [List.filterMap_append, List.filterMap_append, veil_released, veil_released, alike, agenda]

theorem steady_matched (moves : List Move) (alike : veil.session s = veil.session t)
    (agenda : tasks.filterMap veil.task = others.filterMap veil.task) :
    ∃ matching, t.steady others matching = s.steady tasks moves ∧
      ((∀ move ∈ moves, move = .next) → ∀ move ∈ matching, move = .next) := by
  induction moves generalizing s t tasks others with
  | nil => exact ⟨[], rfl, id⟩
  | cons move moves ih =>
    have apart {call : Move} (other : call ≠ .next) {matching : List Move}
        (running : ∀ move ∈ call :: moves, move = .next) : ∀ move ∈ matching, move = Move.next :=
      absurd (running call List.mem_cons_self) other
    cases move with
    | next =>
      have later (running : ∀ move ∈ Move.next :: moves, move = .next) : ∀ move ∈ moves, move = .next :=
        fun move member => running move (List.mem_cons_of_mem _ member)
      cases tasks with
      | nil =>
        obtain ⟨matching, same, running⟩ := ih alike agenda
        exact ⟨matching, same, running ∘ later⟩
      | cons task rest =>
        cases kept : veil.task task with
        | none =>
          obtain ⟨still, -, idle⟩ := @Revision.step_dropped veil s task kept
          rw [List.filterMap_cons_none kept] at agenda
          obtain ⟨matching, same, running⟩ := ih (still.trans alike) agenda
          refine ⟨matching, ?_, running ∘ later⟩
          rw [same, steady, kept, idle]
          rfl
        | some image =>
          rw [List.filterMap_cons_some kept] at agenda
          obtain ⟨k, u, next, left, same, first, last, onward⟩ := @skip_switches t others image _ agenda.symm
          obtain ⟨still, tasks⟩ := alike_step kept first (alike.trans same.symm) last.symm
          obtain ⟨matching, equal, running⟩ := ih still tasks
          refine ⟨List.replicate k .next ++ .next :: matching, ?_, fun all => ?_⟩
          · rw [onward, steady, steady, kept, first, equal]
          · refine running_replicate k fun move member => ?_
            rcases List.mem_cons.mp member with now | behind
            · exact now
            · exact running (later all) move behind
    | call op =>
      have called : (Task.perform op :: tasks).filterMap veil.task =
          (Task.perform op :: others).filterMap veil.task := by
        rw [veil_called, veil_called, agenda]
      obtain ⟨matching, same, -⟩ := ih alike called
      exact ⟨.call op :: matching, by rw [steady, steady, same], apart (by simp)⟩
    | letGo =>
      obtain ⟨emptied, released⟩ := alike_released alike agenda
      obtain ⟨matching, same, -⟩ := ih emptied released
      exact ⟨.letGo :: matching, by rw [steady, steady, same], apart (by simp)⟩

end Match

/-- Two sessions with their tasks, of which the veil shows the same whatever becomes of them. -/
structure Transparent (s t : Session) (tasks others : List Task) : Prop where
  /-- Every course is one of moves. -/
  courses : ∀ ms u rest, Course s tasks ms u rest → ∃ moves, s.follow tasks moves = ⟨u, seen ms, rest⟩
  /-- Handlers, answers, completions, octets and the log show the same after the same moves, however
  switches are put among them. -/
  same : ∀ moves matching, s.steady tasks moves = t.steady others matching →
    veil.turn (s.follow tasks moves) = veil.turn (t.follow others matching)
  matched : ∀ moves, ∃ matching, s.steady tasks moves = t.steady others matching
  runs : ∀ n, ∃ k, veil.turn (s.run n tasks) = veil.turn (t.run k others)

/-- Neither the settings of tracing nor any switch of it, wherever it stands, changes what is seen
apart from records of the wire and answers to whether messages are traced. -/
theorem transparent_of_alike {s t : Session} {tasks others : List Task}
    (alike : veil.session s = veil.session t)
    (agenda : tasks.filterMap veil.task = others.filterMap veil.task) : Transparent s t tasks others where
  courses := fun _ _ _ course => follow_of_course course
  same := by
    intro moves matching same
    rw [veil_follow, veil_follow, alike, agenda, same]
  matched := by
    intro moves
    obtain ⟨matching, same, -⟩ := steady_matched moves alike agenda
    exact ⟨matching, same.symm⟩
  runs := by
    intro n
    obtain ⟨matching, same, running⟩ := steady_matched (List.replicate n .next) alike agenda
    -- A run is matched by a run: where the one makes no calls the other makes none.
    have nexts : matching = List.replicate matching.length .next :=
      List.eq_replicate_iff.mpr ⟨rfl, running fun _ member => List.eq_of_mem_replicate member⟩
    refine ⟨matching.length, ?_⟩
    rw [← follow_nexts, ← follow_nexts, ← nexts, veil_follow, veil_follow, alike, agenda, same]

/-- A notification that nobody handles, traced by one session and not by the other. -/
theorem transparent_to_notification :
    let silent := overStream {}
    let traced := overStream { traceMessages := true }
    let tasks := [Op.attach, .notify "m" [], .getTracing].map Task.perform
    let others := [Op.attach, .setTracing false, .setTracing true, .notify "m" [], .getTracing].map Task.perform
    veil.session silent = veil.session traced ∧ Transparent silent traced tasks others ∧
      veil.turn (silent.run 3 tasks) = veil.turn (traced.run 5 others) ∧
        (silent.run 3 tasks).events.length = 3 ∧ (traced.run 5 others).events.length = 4 := by
  intro silent traced tasks others
  have alike : veil.session silent = veil.session traced := rfl
  have transparent : Transparent silent traced tasks others := transparent_of_alike alike rfl
  have same := transparent.same (List.replicate 3 .next) (List.replicate 5 .next) rfl
  rw [follow_nexts, follow_nexts] at same
  exact ⟨alike, transparent, same, rfl, rfl⟩

end Session
end LanguageClient
