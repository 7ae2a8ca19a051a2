import LanguageClient.Session.Step

/-! The courses that a session can take.

A course goes on by the next task, or by an operation from outside. Such a call may come
at any moment: between two runs, from a handler, from a completion, or while a stream is
read. Only between the decision about a send and the call of its completion there is none.
Every run is a course, so what holds of all courses holds of every run, at every moment.
-/

set_option autoImplicit false
namespace LanguageClient

/-- One step of a course: the session before it, the task that is done, and the tasks
that were to come after it. -/
structure Moment where
  session : Session
  task : Task
  later : List Task

namespace Moment

def turn (m : Moment) : Turn := m.session.step m.task

end Moment

namespace Task

def finishing? : Task → Option (Completion × Except TransportError Rpc.Outcome)
  | .finish c outcome => some (c, outcome)
  | _ => none

def serves : Task → Bool
  | .receive .. | .stopped _ => true
  | _ => false

end Task

def Turn.behind (turn : Turn) (events : List Event) : Turn := { turn with events := events ++ turn.events }

namespace Session

/-- Nobody is about to be told how a send ended, so anyone may ask for something. -/
def Open (tasks : List Task) : Prop := ∀ task ∈ tasks.head?, task.finishing? = none

/-- The steps by which a session with its tasks may become another one. -/
inductive Course (first : Session) (tasks : List Task) : List Moment → Session → List Task → Prop where
  | start : Course first tasks [] first tasks
  | step {ms : List Moment} {s : Session} {task : Task} {rest : List Task} :
      Course first tasks ms s (task :: rest) →
      Course first tasks (ms ++ [⟨s, task, rest⟩]) (s.step task).session
        ((s.step task).tasks ++ rest)
  | call {ms : List Moment} {s : Session} {rest : List Task} (op : Op) :
      Course first tasks ms s rest → Open rest →
      Course first tasks ms s (.perform op :: rest)
  | letGo {ms : List Moment} {s : Session} {rest : List Task} :
      Course first tasks ms s rest → Open rest →
      Course first tasks ms { s with held := [] }
        (s.held.map (fun entry => .release entry.2) ++ rest)

def seen (ms : List Moment) : List Event := ms.flatMap (·.turn.events)

@[simp] theorem seen_nil : seen [] = [] := rfl

@[simp] theorem seen_append (ms ns : List Moment) : seen (ms ++ ns) = seen ms ++ seen ns := by
  simp [seen]

@[simp] theorem seen_singleton (m : Moment) : seen [m] = m.turn.events := by
  simp [seen]

def trail : Nat → Session → List Task → List Moment
  | 0, _, _ => []
  | _ + 1, _, [] => []
  | steps + 1, s, task :: rest =>
      ⟨s, task, rest⟩ :: trail steps (s.step task).session ((s.step task).tasks ++ rest)

theorem open_nil : Open [] := by
  simp [Open]

theorem open_perform (op : Op) (rest : List Task) : Open (.perform op :: rest) := by
  simp [Open, Task.finishing?]

theorem cut_at_last {ms before after : List Moment} {m k : Moment} (split : ms ++ [m] = before ++ k :: after) :
    (before = ms ∧ k = m ∧ after = []) ∨ ∃ between, ms = before ++ k :: between ∧ after = between ++ [m] := by
  rcases List.eq_nil_or_concat after with rfl | ⟨between, last, rfl⟩
  · obtain ⟨rfl, same⟩ := List.append_inj' split rfl
    exact .inl ⟨rfl, (List.singleton_inj.mp same).symm, rfl⟩
  · rw [List.concat_eq_append, ← List.cons_append, ← List.append_assoc] at split
    obtain ⟨sooner, same⟩ := List.append_inj' split rfl
    exact .inr ⟨between, sooner, by rw [List.concat_eq_append, List.singleton_inj.mp same]⟩

namespace Course

variable {first second third : Session} {tasks more last : List Task} {ms ns : List Moment}

theorem trans (h : Course first tasks ms second more) (k : Course second more ns third last) :
    Course first tasks (ms ++ ns) third last := by
  induction k with
  | start => simpa using h
  | step _ ih =>
    rw [← List.append_assoc]
    exact .step ih
  | call op _ free ih => exact .call op ih free
  | letGo _ free ih => exact .letGo ih free

theorem parts (h : Course first tasks ms second more) {before after : List Moment} {m : Moment}
    (split : ms = before ++ m :: after) :
    Course first tasks before m.session (m.task :: m.later) ∧
      Course m.turn.session (m.turn.tasks ++ m.later) after second more := by
  induction h generalizing after with
  | start => simp at split
  | step earlier ih =>
    rcases cut_at_last split with ⟨rfl, rfl, rfl⟩ | ⟨between, sooner, rfl⟩
    · exact ⟨earlier, .start⟩
    · exact ⟨(ih sooner).1, .step (ih sooner).2⟩
  | call op _ free ih => exact ⟨(ih split).1, .call op (ih split).2 free⟩
  | letGo _ free ih => exact ⟨(ih split).1, .letGo (ih split).2 free⟩

theorem upTo (h : Course first tasks ms second more) {before after : List Moment} {m : Moment}
    (split : ms = before ++ m :: after) : Course first tasks before m.session (m.task :: m.later) :=
  (h.parts split).1

theorem behind (h : Course first tasks ms second more) {before after : List Moment} {m : Moment}
    (split : ms = before ++ m :: after) : Course m.turn.session (m.turn.tasks ++ m.later) after second more :=
  (h.parts split).2

theorem of_run (steps : Nat) (s : Session) (tasks : List Task) :
    Course s tasks (trail steps s tasks) (s.run steps tasks).session (s.run steps tasks).tasks := by
  induction steps generalizing s tasks with
  | zero => exact .start
  | succ steps ih =>
    cases tasks with
    | nil => exact .start
    | cons task rest =>
      have first : Course s (task :: rest) [⟨s, task, rest⟩] _ _ := .step .start
      exact first.trans (ih _ _)

theorem execute (h : Course first tasks ms second []) (steps : Nat) (op : Op) :
    Course first tasks (ms ++ trail steps second [.perform op]) (second.execute steps op).session
      (second.execute steps op).tasks :=
  (h.call op open_nil).trans (of_run steps second [.perform op])

end Course

/-! Runs, one step after the other. -/

section Runs

variable {steps : Nat} {s : Session} {task : Task} {tasks rest : List Task}

theorem seen_trail (steps : Nat) (s : Session) (tasks : List Task) :
    seen (trail steps s tasks) = (s.run steps tasks).events := by
  induction steps generalizing s tasks with
  | zero => rfl
  | succ steps ih =>
    cases tasks with
    | nil => rfl
    | cons task rest =>
      rw [trail, ← List.singleton_append, seen_append, seen_singleton, ih]
      rfl

theorem trail_add (steps more : Nat) (s : Session) (tasks : List Task) :
    trail steps s tasks <+: trail (steps + more) s tasks := by
  induction steps generalizing s tasks with
  | zero => exact List.nil_prefix
  | succ steps ih =>
    rw [Nat.succ_add]
    cases tasks with
    | nil => exact List.nil_prefix
    | cons task rest => exact (List.prefix_cons_inj _).mpr (ih _ _)

theorem run_succ (left : (s.run steps tasks).tasks = task :: rest) :
    trail (steps + 1) s tasks = trail steps s tasks ++ [⟨(s.run steps tasks).session, task, rest⟩] ∧
      (s.run (steps + 1) tasks).session = ((s.run steps tasks).session.step task).session ∧
        (s.run (steps + 1) tasks).tasks = ((s.run steps tasks).session.step task).tasks ++ rest := by
  induction steps generalizing s tasks with
  | zero =>
    obtain rfl : tasks = task :: rest := left
    exact ⟨rfl, rfl, rfl⟩
  | succ steps ih =>
    cases tasks with
    | nil => cases left
    | cons first others =>
      obtain ⟨trailed, session, later⟩ := ih left
      exact ⟨congrArg (_ :: ·) trailed, session, later⟩

end Runs

/-! Readings of what could be seen, of which neither the log nor a written message is a part. -/

section Readings

variable {α : Type} (reads : Event → Option α)

theorem filterMap_wire (unlogged : ∀ record, reads (.log record) = none) (traced : Bool) (message : String)
    (fields : List (String × Log.Field)) : (wire traced message fields).filterMap reads = [] := by
  cases traced with
  | false => rfl
  | true => exact List.filterMap_cons_none (unlogged _)

theorem filterMap_notes (unlogged : ∀ record, reads (.log record) = none) (notes : List Frame.Note) :
    (notes.map noteEvent).filterMap reads = [] := by
  rw [List.filterMap_map, List.filterMap_eq_nil_iff]
  rintro (_ | _) _ <;> exact unlogged _

theorem filterMap_write (unwritten : ∀ subject bytes, reads (@Event.written subject bytes) = none)
    (c : Connection) (subject : Subject) (text : List Char) :
    (c.write subject text).2.1.filterMap reads = [] := by
  unfold Connection.write
  split
  · rfl
  · exact List.filterMap_cons_none (unwritten _ _)

end Readings
end Session
end LanguageClient
