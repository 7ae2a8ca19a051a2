import LanguageClient.Proofs.Frame.Stream
import LanguageClient.Proofs.Session.Alignment
import LanguageClient.Proofs.Session.Malformed

/-! Input that cannot be used, and when a call that reads a stream ends in an error.

A block without a usable length, a body that is too large or no message: each is reported, the
session stays as it was, and the reading goes on behind it.
-/

set_option autoImplicit false
namespace LanguageClient

open LanguageClient.Frame (Arrival Yields)

/-- Why what arrives cannot be used, although the stream goes on. -/
def Frame.Arrival.fault? : Arrival → Option TransportError
  | .rejected e => some e
  | .frame body =>
      match Rpc.Message.ofBytes body with
      | .error e => some (.codec e)
      | .ok _ => none
  | _ => none

namespace Session

section Faults

variable {s : Session} {m : Moment} {arrival : Arrival} {e : TransportError}

theorem meet_of_fault (s : Session) (faulty : arrival.fault? = some e) : s.meet arrival = s.reportFrame e := by
  cases arrival with
  | rejected reason =>
    cases faulty
    rfl
  | frame body =>
    simp only [Arrival.fault?] at faulty
    split at faulty
    · rename_i reason refused
      cases faulty
      simp only [meet, route, refused]
    · cases faulty
  | _ => cases faulty

theorem going_of_fault (faulty : arrival.fault? = some e) : arrival.final = false := by
  cases arrival with
  | failed | ended => cases faulty
  | _ => rfl

theorem outer_notes (notes : List Frame.Note) : (notes.map noteEvent).filter Event.outer = [] := by
  rw [List.filter_eq_nil_iff]
  intro event member
  obtain ⟨note, -, rfl⟩ := List.mem_map.mp member
  cases note <;> exact Bool.false_ne_true

theorem reading_of_arrival (arrived : m.arrival? = some arrival) :
    ∃ phase bytes left, m.task = .receive phase bytes left := by
  unfold Moment.arrival? at arrived
  split at arrived
  · exact ⟨_, _, _, ‹_›⟩
  · cases arrived

theorem turn_of_fault {phase : Frame.Phase} {bytes : List UInt8} {left : List (Supply Op)}
    (reading : m.task = .receive phase bytes left) (arrived : m.arrival? = some arrival)
    (faulty : arrival.fault? = some e) :
    m.turn.session = m.session ∧
      m.turn.events.filter Event.outer = (if m.session.attached then [.transportError e] else []) ∧
      m.turn.tasks = [.receive .start (Frame.next phase bytes left.isEmpty).rest left] := by
  obtain ⟨notes, turn⟩ := turn_of_arrival arrived
  obtain ⟨still, idle⟩ := m.session.silent_reportFrame e
  have met : (m.session.noted notes).session.meet arrival = m.session.reportFrame e := meet_of_fault _ faulty
  refine ⟨?_, ?_, ?_⟩
  · rw [turn]
    exact (congrArg Turn.session met).trans still
  · have events : m.turn.events =
        notes.map noteEvent ++ ((m.session.noted notes).session.meet arrival).events ++ [] := by
      rw [turn]
      rfl
    rw [events, met, List.append_nil, List.filter_append, outer_notes, List.nil_append, outer_reportFrame]
  · rw [turn, noted_meet_tasks, Moment.resumed_of_going reading (going_of_fault faulty)]
    exact congrArg (· ++ _) ((congrArg Turn.tasks met).trans idle)

end Faults

/-- How far a call is that reads a stream which holds just these arrivals. -/
structure Resilient (bytes : List UInt8) (expected : List Arrival) (rest : List Task) (ms : List Moment)
    (agenda : List Task) : Prop where
  met : arrivals rest.length ms <+: expected
  reported : ∀ m ∈ own rest.length ms, ∀ arrival e, m.arrival? = some arrival → arrival.fault? = some e →
    m.turn.session = m.session ∧
      m.turn.events.filter Event.outer = (if m.session.attached then [.transportError e] else []) ∧
      ∃ behind left, m.turn.tasks = [.receive .start behind left]
  returned : ∀ outcome later, agenda = .stopped outcome :: later → later.length = rest.length →
    arrivals rest.length ms = expected ∧ expected.getLast? = some (closing outcome) ∧
      ∀ e, outcome = .error e → e = Frame.endedInHeaders ∨ e = Frame.endedInBody ∨
        e = Frame.notText ∧ Frame.Garbled bytes

section Calls

variable {s t : Session} {input : List (Supply Op)} {expected : List Arrival} {rest agenda : List Task}
  {ms : List Moment}

theorem resilient_of_standing (smooth : Smooth input)
    (delivers : Frame.Delivers .start (octets input) expected) (yields : Yields (octets input) expected)
    (course : Course s (.perform (.serve input) :: rest) ms t agenda) (unreturned : Unreturned rest.length ms) :
    Resilient (octets input) expected rest ms agenda := by
  have standing := standing_of_course smooth delivers course unreturned
  constructor
  · obtain ⟨front, task, left, budget, -, -, met, -⟩ := standing
    exact ⟨left, met⟩
  · intro m _ arrival e arrived faulty
    obtain ⟨phase, bytes, left, reading⟩ := reading_of_arrival arrived
    obtain ⟨still, once, onward⟩ := turn_of_fault reading arrived faulty
    exact ⟨still, once, _, _, onward⟩
  · rintro outcome later rfl level
    obtain ⟨everything, last⟩ := standing.ended level
    refine ⟨everything, last, ?_⟩
    rintro e rfl
    exact yields.fault (List.mem_of_getLast? last)

theorem served_of_recurs (smooth : Smooth input) (delivers : Frame.Delivers .start (octets input) expected)
    (recurs : Recurs s [.perform (.serve input)]) : ∃ n outcome, (s.execute n (.serve input)).tasks = [] ∧
      (s.execute n (.serve input)).events.getLast? = some (.served outcome) ∧
        expected.getLast? = some (closing outcome) := by
  obtain ⟨n, outcome, stopped, unreturned⟩ := stops_of_recurs smooth delivers recurs
  obtain ⟨trailed, -, left⟩ := run_succ stopped
  have standing := standing_of_course smooth delivers (Course.of_run n s _) unreturned
  rw [stopped] at standing
  refine ⟨n + 1, outcome, left, ?_, (standing.ended rfl).2⟩
  rw [execute, ← seen_trail, trailed, seen_append, seen_singleton]
  exact List.getLast?_concat

end Calls

/-- A call that reads a stream goes on behind whatever cannot be used, reporting it and leaving the
session as it was. It ends in an error only where the stream ends within a header block or a body,
and at a line that is no text. -/
theorem resilient_of_course {input : List (Supply Op)} (smooth : Smooth input) :
    ∃ expected, Yields (octets input) expected ∧
      (∀ s rest ms t agenda, Course s (.perform (.serve input) :: rest) ms t agenda →
        Unreturned rest.length ms → Resilient (octets input) expected rest ms agenda) ∧
      ∀ s, Recurs s [.perform (.serve input)] → ∃ n outcome, (s.execute n (.serve input)).tasks = [] ∧
        (s.execute n (.serve input)).events.getLast? = some (.served outcome) ∧
          expected.getLast? = some (closing outcome) := by
  obtain ⟨expected, delivers, yields⟩ := Frame.delivers_of_bytes (octets input)
  exact ⟨expected, yields,
    fun _ _ _ _ _ course unreturned => resilient_of_standing smooth delivers yields course unreturned,
    fun _ recurs => served_of_recurs smooth delivers recurs⟩

/-- A blank line announces nothing; the stream ends in order behind it. -/
theorem resilient_to_blank : Yields [10] [.rejected .missingContentLength, .ended] ∧
    ∃ n, ((overStream {}).execute n (.serve [.bytes [10]])).tasks = [] ∧
      ((overStream {}).execute n (.serve [.bytes [10]])).events.getLast? = some (.served (.ok ())) := by
  have smooth : Smooth [.bytes [10]] := by simp [Smooth]
  have plain : Plain [.bytes [10]] := by simp [Plain]
  have quiet : Quiet (overStream {}) := ⟨rfl, fun c same => by cases same; rfl⟩
  have blank : Yields [10] [.rejected .missingContentLength, .ended] :=
    .more (Frame.holds_iff.mpr ⟨rfl, rfl⟩) rfl (.last (.ended rfl) rfl)
  obtain ⟨expected, yields, -, returns⟩ := resilient_of_course smooth
  obtain ⟨n, outcome, left, served, last⟩ := returns _ (recurs_of_quiet quiet plain)
  obtain rfl := blank.unique yields
  have fine : outcome = .ok () := closing_ended (Option.some.inj last).symm
  exact ⟨blank, n, left, fine ▸ served⟩

/-- A line that is no text ends the call, and with it every request that waits. -/
theorem failed_at_garbled_line :
    let completion : Completion := ⟨1, .typed .shutdown .value, []⟩
    let s : Session := { overStream {} with transport := .connection { pending := [(.number 1, completion)] } }
    let input : List (Supply Op) := [.bytes [255, 10, 10]]
    Smooth input ∧ Frame.notText.fault ≠ .unexpectedEnd ∧
      (s.execute 5 (.serve input)).events.filterMap Event.completion? = [(1, .failed (.requestNotSent .closed))] ∧
        (s.execute 5 (.serve input)).events.getLast? = some (.served (.error Frame.notText)) := by
  intro completion s input
  refine ⟨by simp [Smooth, input], by decide, ?_, ?_⟩
  · rfl
  · rfl

end Session
end LanguageClient
