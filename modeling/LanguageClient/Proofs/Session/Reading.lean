import LanguageClient.Proofs.Frame.Reader
import LanguageClient.Proofs.Session.Course
import Mathlib.Tactic.ByContra

/-! What arrives in a step that reads a stream, and what the session does about it. -/

set_option autoImplicit false
namespace LanguageClient

open Rpc (RequestId Outcome)

namespace Moment

/-- What arrives in a step that reads a stream; a failure of the reader arrives too. -/
def arrival? (m : Moment) : Option Frame.Arrival :=
  match m.task with
  | .receive phase bytes input =>
      match (Frame.next phase bytes input.isEmpty).arrival with
      | .starved _ =>
          match input with
          | .failure fault :: _ =>
              if fault = .interrupted then none else some (.failed ⟨fault, none⟩)
          | _ => none
      | arrival => some arrival
  | _ => none

def ends (m : Moment) : Bool := m.arrival?.any Frame.Arrival.final

def routes? (m : Moment) : Option (List UInt8) :=
  match m.arrival? with
  | some (.frame body) => some body
  | _ => none

def hears? (m : Moment) : Option (RequestId × Outcome) :=
  match m.routes?.map Rpc.Message.ofBytes with
  | some (.ok (.response (some id) outcome)) => some (id, outcome)
  | _ => none

theorem routes?_eq_some {m : Moment} {body : List UInt8} :
    m.routes? = some body ↔ m.arrival? = some (.frame body) := by
  unfold routes?
  split <;> simp_all

theorem hears?_eq_some {m : Moment} {id : RequestId} {outcome : Outcome} :
    m.hears? = some (id, outcome) ↔ ∃ body, m.arrival? = some (.frame body) ∧
      Rpc.Message.ofBytes body = .ok (.response (some id) outcome) := by
  simp only [← routes?_eq_some, hears?]
  cases m.routes? with
  | none => simp
  | some body =>
    simp only [Option.map_some, Option.some.injEq, exists_eq_left']
    split <;> simp_all

/-- The reading that is left after an arrival. -/
def resumed (m : Moment) (arrival : Frame.Arrival) : List Task :=
  if arrival.final then []
  else match m.task with
    | .receive phase bytes input =>
        [.receive .start (Frame.next phase bytes input.isEmpty).rest input]
    | _ => []

theorem reads_of_resumed {m : Moment} {arrival : Frame.Arrival} {task : Task}
    (member : task ∈ m.resumed arrival) : ∃ phase bytes input, task = .receive phase bytes input := by
  unfold resumed at member
  split at member
  · cases member
  · split at member
    · exact ⟨_, _, _, List.mem_singleton.mp member⟩
    · cases member

theorem resumed_of_final {m : Moment} {arrival : Frame.Arrival} (final : arrival.final = true) :
    m.resumed arrival = [] := if_pos final

theorem resumed_of_going {m : Moment} {arrival : Frame.Arrival} {phase : Frame.Phase}
    {bytes : List UInt8} {input : List (Supply Op)} (reading : m.task = .receive phase bytes input)
    (going : arrival.final = false) :
    m.resumed arrival = [.receive .start (Frame.next phase bytes input.isEmpty).rest input] := by
  rw [resumed, going, reading]
  rfl

theorem ends_of_arrival {m : Moment} {arrival : Frame.Arrival}
    (arrived : m.arrival? = some arrival) : m.ends = arrival.final := by
  simp [ends, arrived]

end Moment

namespace Session

def meet (s : Session) : Frame.Arrival → Turn
  | .frame body => s.route body
  | .rejected e => s.reportFrame e
  | .failed e => s.stop (.error e)
  | .ended => s.stop (.ok ())
  | .starved _ => { session := s }

def noted (s : Session) (notes : List Frame.Note) : Turn :=
  { session := s, events := notes.map noteEvent }

def readOn (tail : List Task) (s : Session) : Turn := { session := s, tasks := tail }

theorem andThen_readOn_nil (turn : Turn) : turn.andThen (readOn []) = turn := by
  simp [Turn.andThen, readOn]

/-- An arrival is noted and met; then, unless the stream is over, the reading goes on. -/
theorem turn_of_arrival {m : Moment} {arrival : Frame.Arrival} (arrived : m.arrival? = some arrival) :
    ∃ notes, m.turn =
      ((m.session.noted notes).andThen (·.meet arrival)).andThen (readOn (m.resumed arrival)) := by
  obtain ⟨s, task, later⟩ := m
  unfold Moment.arrival? at arrived
  split at arrived
  · rename_i phase bytes input same
    simp only at same
    subst same
    simp only [Moment.turn, step, receive]
    refine ⟨(Frame.next phase bytes input.isEmpty).notes, ?_⟩
    split at arrived
    · -- The octets do not make an arrival, but a failure of the reader may.
      rename_i starving found
      split at arrived
      · rename_i fault rest
        split at arrived
        · cases arrived
        · rename_i failing
          cases arrived
          have done : Moment.resumed ⟨s, .receive phase bytes (.failure fault :: rest), later⟩
              (.failed ⟨fault, none⟩) = [] := rfl
          rw [done]
          simp only [found, andThen_readOn_nil, supply, if_neg failing, meet, noted]
      · cases arrived
    · rename_i other
      simp only [Option.some.injEq] at arrived
      subst arrived
      cases found : (Frame.next phase bytes input.isEmpty).arrival with
      | frame body => rfl
      | rejected e => rfl
      | failed e => exact (andThen_readOn_nil _).symm
      | ended => exact (andThen_readOn_nil _).symm
      | starved phase => exact absurd found (other phase)
  · cases arrived

theorem turn_of_none {m : Moment} {phase : Frame.Phase} {bytes : List UInt8}
    {input : List (Supply Op)} (reading : m.task = .receive phase bytes input)
    (none : m.arrival? = none) :
    ∃ notes starving, (Frame.next phase bytes input.isEmpty).arrival = .starved starving ∧
      m.turn = (m.session.noted notes).andThen (·.supply starving input) ∧
        ∀ fault rest, input = .failure fault :: rest → fault = .interrupted := by
  obtain ⟨s, task, later⟩ := m
  simp only at reading
  subst reading
  simp only [Moment.arrival?] at none
  simp only [Moment.turn, step, receive]
  refine ⟨(Frame.next phase bytes input.isEmpty).notes, ?_⟩
  split at none
  · rename_i starving found
    simp only [found]
    refine ⟨starving, rfl, rfl, ?_⟩
    rintro fault rest rfl
    by_contra failing
    simp only [if_neg failing, reduceCtorEq] at none
  · cases none

end Session
end LanguageClient
