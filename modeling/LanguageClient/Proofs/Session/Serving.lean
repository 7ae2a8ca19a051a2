import LanguageClient.Proofs.Frame.Writer
import LanguageClient.Proofs.Session.Reading

/-! One call that reads a stream, among whatever else happens meanwhile.

The steps of the call are those with as many tasks behind them as it began with. Each takes
something in: an arrival, or a piece of the stream. So there are only so many of them, and
the call comes back unless something that it set off goes on for ever.
-/

set_option autoImplicit false
namespace LanguageClient

open LanguageClient.Frame (Arrival Phase Delivers)

def Supply.octets : Supply Op → List UInt8
  | .bytes part => part
  | _ => []

namespace Session

def octets (input : List (Supply Op)) : List UInt8 := input.flatMap Supply.octets

/-- A stream whose failures are all interruptions. -/
def Smooth (input : List (Supply Op)) : Prop :=
  ∀ fault, Supply.failure fault ∈ input → fault = .interrupted

/-- The steps with so many tasks behind them. -/
def own (depth : Nat) (ms : List Moment) : List Moment := ms.filter (·.later.length == depth)

def Unreturned (depth : Nat) (ms : List Moment) : Prop :=
  ∀ m ∈ ms, m.later.length = depth → ∀ outcome, m.task ≠ .stopped outcome

def closing : Except StreamError Unit → Arrival
  | .ok () => .ended
  | .error e => .failed e

/-! The end of a stream. -/

theorem stop_tasks (s : Session) (outcome : Except StreamError Unit) :
    (s.stop outcome).tasks = s.close.tasks ++ [.stopped outcome] := rfl

theorem meet_final (s : Session) {arrival : Arrival} (final : arrival.final = true) :
    ∃ outcome, closing outcome = arrival ∧ s.meet arrival = s.stop outcome := by
  cases arrival with
  | failed e => exact ⟨.error e, rfl, rfl⟩
  | ended => exact ⟨.ok (), rfl, rfl⟩
  | _ => cases final

theorem noted_meet_tasks (s : Session) (notes : List Frame.Note) (arrival : Arrival) (tail : List Task) :
    (((s.noted notes).andThen (·.meet arrival)).andThen (readOn tail)).tasks =
      (s.meet arrival).tasks ++ tail := rfl

/-! The octets at hand and those still to come. -/

theorem agrees_supplied (phase : Phase) (bytes : List UInt8) (input : List (Supply Op)) :
    Frame.Agrees (Frame.next phase bytes input.isEmpty) (octets input)
      (Frame.next phase (bytes ++ octets input) true) := by
  cases input with
  | nil =>
    have none : octets [] = [] := rfl
    rw [none, List.append_nil, List.isEmpty_nil]
    unfold Frame.Agrees
    split
    · rename_i later starved
      exact absurd starved (Frame.next_ended _ _ _)
    · exact ⟨rfl, (List.append_nil _).symm⟩
  | cons supply input => exact Frame.next_append _ _ _

theorem next_of_arrival {m : Moment} {phase : Phase} {bytes : List UInt8} {input : List (Supply Op)}
    (reading : m.task = .receive phase bytes input) (smooth : Smooth input) {arrival : Arrival}
    (arrived : m.arrival? = some arrival) :
    (Frame.next phase bytes input.isEmpty).arrival = arrival ∧ ∀ later, arrival ≠ .starved later := by
  simp only [Moment.arrival?, reading] at arrived
  split at arrived
  · split at arrived
    · rename_i fault rest _
      rw [if_pos (smooth fault List.mem_cons_self)] at arrived
      cases arrived
    · cases arrived
  · rename_i other
    obtain rfl := Option.some.inj arrived
    exact ⟨rfl, other⟩

/-- How far a call is that has met some arrivals: its task, the arrivals still to come, and
how many steps it takes at most. -/
inductive Stands (met : List Arrival) : Task → List Arrival → Nat → Prop where
  | called {input : List (Supply Op)} {left : List Arrival} : Smooth input →
      Delivers .start (octets input) left →
      Stands met (.perform (.serve input)) left (input.length + left.length + 1)
  | reading {phase : Phase} {bytes : List UInt8} {input : List (Supply Op)} {left : List Arrival} :
      Smooth input → Delivers phase (bytes ++ octets input) left →
      Stands met (.receive phase bytes input) left (input.length + left.length)
  | ended {outcome : Except StreamError Unit} : met.getLast? = some (closing outcome) →
      Stands met (.stopped outcome) [] 0

structure Proceeds (m : Moment) (met left : List Arrival) (budget : Nat) : Prop where
  proceeds : ∃ front task remaining less, m.turn.tasks = front ++ [task] ∧
    Stands (met ++ m.arrival?.toList) task remaining less ∧
      m.arrival?.toList ++ remaining = left ∧ less < budget

section Step

variable {m : Moment} {met left : List Arrival} {phase : Phase} {bytes : List UInt8}
  {input : List (Supply Op)}

theorem proceeds_arrival (reading : m.task = .receive phase bytes input) (smooth : Smooth input)
    (delivers : Delivers phase (bytes ++ octets input) left) {arrival : Arrival}
    (arrived : m.arrival? = some arrival) : Proceeds m met left (input.length + left.length) := by
  obtain ⟨next, filled⟩ := next_of_arrival reading smooth arrived
  obtain ⟨same, rest⟩ := (agrees_supplied phase bytes input).of_arrived (by rwa [next])
  obtain ⟨notes, turn⟩ := turn_of_arrival arrived
  rw [next] at same
  refine ⟨?_⟩
  rw [turn, noted_meet_tasks, arrived, Option.toList_some]
  cases delivers with
  | ended last final =>
    obtain rfl : arrival = _ := same.symm.trans last
    obtain ⟨outcome, closes, stops⟩ := meet_final m.session final
    rw [Moment.resumed_of_final final, stops, stop_tasks, List.append_nil]
    refine ⟨_, _, _, _, rfl, .ended ?_, rfl, by simp⟩
    rw [List.getLast?_concat, closes]
  | more first going later =>
    obtain rfl : arrival = _ := same.symm.trans first
    rw [rest] at later
    rw [Moment.resumed_of_going reading going]
    exact ⟨_, _, _, _, rfl, .reading smooth later, rfl, Nat.lt_succ_self _⟩

theorem proceeds_starved (reading : m.task = .receive phase bytes input) (smooth : Smooth input)
    (delivers : Delivers phase (bytes ++ octets input) left) (silent : m.arrival? = none) :
    Proceeds m met left (input.length + left.length) := by
  obtain ⟨notes, starving, starved, turn, -⟩ := turn_of_none reading silent
  obtain ⟨arrival, rest⟩ := (agrees_supplied phase bytes input).of_starved starved
  have delivers : Delivers starving (octets input) left := delivers.congr arrival rest
  have tasks : ((m.session.noted notes).andThen (·.supply starving input)).tasks =
      (m.session.supply starving input).tasks := rfl
  refine ⟨?_⟩
  rw [turn, tasks, silent, Option.toList_none, List.append_nil]
  cases input with
  | nil => exact absurd starved (Frame.next_ended _ _ _)
  | cons supply input =>
    have later : Smooth input := fun fault member => smooth fault (List.mem_cons_of_mem _ member)
    have less : input.length + left.length < (supply :: input).length + left.length := by
      rw [List.length_cons]
      omega
    cases supply with
    | bytes bytes => exact ⟨[], _, _, _, rfl, .reading later delivers, rfl, less⟩
    | act op => exact ⟨[.perform op], _, _, _, rfl, .reading later delivers, rfl, less⟩
    | failure fault =>
      have interrupted : fault = .interrupted := smooth fault List.mem_cons_self
      have again : (m.session.supply starving (.failure fault :: input)).tasks =
          [.receive starving [] input] := by
        rw [supply, if_pos interrupted]
      exact ⟨[], _, _, _, again, .reading later delivers, rfl, less⟩

theorem Stands.proceeds {budget : Nat} (h : Stands met m.task left budget)
    (going : ∀ outcome, m.task ≠ .stopped outcome) : Proceeds m met left budget := by
  obtain ⟨s, task, later⟩ := m
  cases h with
  | called smooth delivers =>
    refine ⟨[], _, _, _, rfl, ?_, rfl, Nat.lt_succ_self _⟩
    rw [show Moment.arrival? ⟨s, .perform (.serve _), later⟩ = none from rfl, Option.toList_none,
      List.append_nil]
    exact .reading smooth delivers
  | reading smooth delivers =>
    cases arrived : Moment.arrival? ⟨s, .receive _ _ _, later⟩ with
    | some arrival => exact proceeds_arrival rfl smooth delivers arrived
    | none => exact proceeds_starved rfl smooth delivers arrived
  | ended _ => exact absurd rfl (going _)

end Step

/-! Whole courses. -/

def arrivals (depth : Nat) (ms : List Moment) : List Arrival :=
  (own depth ms).filterMap Moment.arrival?

theorem own_of_deeper {depth : Nat} {ms : List Moment} {m : Moment} (deeper : m.later.length ≠ depth) :
    own depth (ms ++ [m]) = own depth ms := by
  simp [own, deeper]

theorem own_concat {depth : Nat} {ms : List Moment} {m : Moment} (level : m.later.length = depth) :
    own depth (ms ++ [m]) = own depth ms ++ [m] := by
  simp [own, level]

theorem arrivals_concat {depth : Nat} {ms : List Moment} {m : Moment} (level : m.later.length = depth) :
    arrivals depth (ms ++ [m]) = arrivals depth ms ++ m.arrival?.toList := by
  rw [arrivals, own_concat level, List.filterMap_append]
  cases arrived : m.arrival? <;> simp [arrivals, arrived]

/-- How far a call is in a course. Whatever is to be done before its next step was asked for
meanwhile. -/
def Standing (expected : List Arrival) (limit : Nat) (rest : List Task) (ms : List Moment)
    (agenda : List Task) : Prop :=
  ∃ front task left budget, agenda = front ++ task :: rest ∧
    Stands (arrivals rest.length ms) task left budget ∧
      arrivals rest.length ms ++ left = expected ∧ (own rest.length ms).length + budget ≤ limit

section Course

variable {expected : List Arrival} {limit : Nat} {rest agenda : List Task} {ms : List Moment}
  {m : Moment} {input : List (Supply Op)}

theorem Standing.concat (h : Standing expected limit rest ms (m.task :: m.later))
    (unreturned : Unreturned rest.length (ms ++ [m])) :
    Standing expected limit rest (ms ++ [m]) (m.turn.tasks ++ m.later) := by
  obtain ⟨front, task, left, budget, split, stands, met, enough⟩ := h
  cases front with
  | nil =>
    obtain ⟨same, level⟩ := List.cons.inj split
    have depth : m.later.length = rest.length := congrArg List.length level
    rw [← same] at stands
    obtain ⟨front, task, remaining, less, tasks, stands, arrived, fewer⟩ :=
      (stands.proceeds (unreturned m (by simp) depth)).proceeds
    refine ⟨front, task, remaining, less, ?_, ?_, ?_, ?_⟩
    · rw [tasks, level, List.append_assoc, List.singleton_append]
    · rwa [arrivals_concat depth]
    · rw [arrivals_concat depth, List.append_assoc, arrived, met]
    · rw [own_concat depth, List.length_append, List.length_singleton]
      omega
  | cons first front =>
    have behind : m.later = front ++ task :: rest := (List.cons.inj split).2
    have deeper : m.later.length ≠ rest.length := by
      rw [behind, List.length_append, List.length_cons]
      omega
    have same : own rest.length (ms ++ [m]) = own rest.length ms := own_of_deeper deeper
    refine ⟨m.turn.tasks ++ front, task, left, budget, ?_, ?_⟩
    · rw [behind, List.append_assoc]
    · rw [arrivals, same]
      exact ⟨stands, met, enough⟩

theorem Standing.join (h : Standing expected limit rest ms agenda) (tasks : List Task) :
    Standing expected limit rest ms (tasks ++ agenda) := by
  obtain ⟨front, task, left, budget, split, stands⟩ := h
  exact ⟨tasks ++ front, task, left, budget, by rw [split, List.append_assoc], stands⟩

/-- Until a call comes back, it has met some of the arrivals and the others are still to come. -/
theorem standing_of_course {s t : Session} (smooth : Smooth input)
    (delivers : Delivers .start (octets input) expected)
    (course : Course s (.perform (.serve input) :: rest) ms t agenda)
    (unreturned : Unreturned rest.length ms) :
    Standing expected (input.length + expected.length + 1) rest ms agenda := by
  induction course with
  | start => exact ⟨[], _, _, _, rfl, .called smooth delivers, rfl, Nat.le_of_eq (Nat.zero_add _)⟩
  | @step ms s task later _ ih =>
    have before := ih fun m member => unreturned m (List.mem_append_left _ member)
    exact Standing.concat (m := ⟨s, task, later⟩) before unreturned
  | call op _ _ ih => exact (ih unreturned).join [.perform op]
  | letGo _ _ ih => exact (ih unreturned).join _

end Course

end Session
end LanguageClient
