import LanguageClient.Proofs.Session.Reading

/-! Messages that come in, and the steps that take one.

A message is handed over by a caller, or it is the body of a frame and there is someone
attached to take it. Either way the step gives it to the same two functions. What the other
functions of a reading let be seen concerns no message.
-/

set_option autoImplicit false
namespace LanguageClient

open Rpc (RequestId Outcome)

/-- A message that comes in; a notification has no id. -/
structure Incoming where
  route : Route
  id : Option RequestId
  method : String
  payload : List UInt8

def Moment.incoming? (m : Moment) : Option Incoming :=
  match m.task with
  | .perform (.request id method payload) => some ⟨.direct, some id, method, payload⟩
  | .perform (.notify method payload) => some ⟨.direct, none, method, payload⟩
  | _ =>
      match m.session.attached, m.routes? with
      | true, some body =>
          match Rpc.Message.ofBytes body with
          | .ok (.request id method) => some ⟨.wire, some id, method, body⟩
          | .ok (.notification method) => some ⟨.wire, none, method, body⟩
          | _ => none
      | _, _ => none

/-- Neither a message nor an answer to one, nor a record of either. -/
def Event.inert : Event → Bool
  | .log record => record.target != .wire
  | .handled _ | @response _ _ | @acknowledged _ _ | .sent _ _ _ | @written _ _ => false
  | _ => true

namespace Session

def dispatch (s : Session) (x : Incoming) : Turn :=
  match x.id with
  | some id => s.handleRequest x.route id x.method x.payload
  | none => s.handleNotification x.route x.method x.payload

section Step

variable {m : Moment}

/-- A step that takes a message dispatches it; then the reading goes on, if it came off a stream. -/
theorem turn_of_incoming {x : Incoming} (taken : m.incoming? = some x) :
    ∃ notes tail, m.turn = ((m.session.noted notes).andThen (·.dispatch x)).andThen (readOn tail) ∧
      ∀ task ∈ tail, ∃ phase bytes input, task = .receive phase bytes input := by
  obtain ⟨s, task, later⟩ := m
  have handed {x : Incoming} {op : Op} (same : s.perform op = s.dispatch x) : ∃ notes tail,
      Moment.turn ⟨s, .perform op, later⟩ = ((s.noted notes).andThen (·.dispatch x)).andThen (readOn tail) ∧
        ∀ task ∈ tail, ∃ phase bytes input, task = .receive phase bytes input := by
    refine ⟨[], [], ?_, by simp⟩
    rw [andThen_readOn_nil, Moment.turn, step, same]
    rfl
  unfold Moment.incoming? at taken
  split at taken
  · rename_i id method payload asked
    obtain rfl : task = _ := asked
    cases taken
    exact handed rfl
  · rename_i method payload asked
    obtain rfl : task = _ := asked
    cases taken
    exact handed rfl
  · split at taken
    · rename_i body attached routed
      have attached : s.attached = true := attached
      obtain ⟨notes, turn⟩ := turn_of_arrival (Moment.routes?_eq_some.mp routed)
      have met : s.meet (.frame body) = s.dispatch x := by
        split at taken
        · rename_i id method read
          cases taken
          simp only [meet, route, read, attached, if_true, dispatch]
        · rename_i method read
          cases taken
          simp only [meet, route, read, attached, if_true, dispatch]
        · cases taken
      refine ⟨notes, Moment.resumed ⟨s, task, later⟩ (.frame body), ?_, fun task => Moment.reads_of_resumed⟩
      rw [turn]
      simp only [Turn.andThen, noted, met]
    · cases taken

theorem filterMap_incoming {α : Type} {x : Incoming} (reads : Event → Option α)
    (unlogged : ∀ record, reads (.log record) = none) (taken : m.incoming? = some x) :
    m.turn.events.filterMap reads = (m.session.dispatch x).events.filterMap reads := by
  obtain ⟨notes, tail, turn, -⟩ := turn_of_incoming taken
  have events : m.turn.events = notes.map noteEvent ++ (m.session.dispatch x).events ++ [] := by rw [turn]; rfl
  rw [events, List.append_nil, List.filterMap_append, filterMap_notes reads unlogged, List.nil_append]

theorem tasks_incoming {x : Incoming} (taken : m.incoming? = some x) :
    ∃ reads, m.turn.tasks = (m.session.dispatch x).tasks ++ reads ∧ ∀ task ∈ reads, task.serves = true := by
  obtain ⟨notes, tail, turn, reading⟩ := turn_of_incoming taken
  refine ⟨tail, by rw [turn]; rfl, fun task member => ?_⟩
  obtain ⟨phase, bytes, input, rfl⟩ := reading task member
  rfl

end Step

section Inert

variable {m : Moment}

theorem inert_notes (notes : List Frame.Note) : (notes.map noteEvent).all Event.inert = true := by
  refine List.all_eq_true.mpr fun event member => ?_
  obtain ⟨note, -, rfl⟩ := List.mem_map.mp member
  cases note <;> rfl

end Inert

end Session
end LanguageClient
