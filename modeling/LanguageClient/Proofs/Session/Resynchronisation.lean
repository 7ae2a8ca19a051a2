import LanguageClient.Proofs.Frame.Resynchronisation
import LanguageClient.Proofs.Session.Loopback
import LanguageClient.Proofs.Session.Resilience

/-! Frames behind a block that cannot be used and the text it leaves on the stream.

The block is reported, once; the frames behind it are met whole and in order, each as it would
have been met on a stream that holds nothing else.
-/

set_option autoImplicit false
namespace LanguageClient

open LanguageClient.Frame (Arrival Unusable Passable landing)
open LanguageClient.Text (Utf8.encode)

namespace Session

def reports (ms : List Moment) : List TransportError := (seen ms).filterMap Event.report?

/-- How far a call is whose stream holds a block that cannot be used, text to pass over and frames
with these bodies. -/
structure Resynchronised (e : TransportError) (bodies : List (List UInt8)) (rest : List Task)
    (ms : List Moment) (agenda : List Task) : Prop where
  met : arrivals rest.length ms <+: .rejected e :: bodies.map landing ++ [.ended]
  /-- What arrives is met in the same step, no matter what came before it. -/
  handled : ∀ m ∈ own rest.length ms, ∀ arrival, m.arrival? = some arrival → ∃ notes, m.turn =
    ((m.session.noted notes).andThen (·.meet arrival)).andThen (readOn (m.resumed arrival))
  passed : ∀ m ∈ own rest.length ms, m.arrival? = some (.rejected e) → m.turn.session = m.session ∧
    m.turn.events.filter Event.outer = (if m.session.attached then [.transportError e] else []) ∧
      ∃ behind left, m.turn.tasks = [.receive .start behind left]
  /-- Besides the block only frames are reported that cannot be used themselves. -/
  reported : (∀ m ∈ ms, m.session.attached = true) →
    reports (own rest.length ms) <+: e :: (bodies.map landing).filterMap Arrival.fault?
  returned : ∀ outcome later, agenda = .stopped outcome :: later → later.length = rest.length →
    outcome = .ok () ∧ arrivals rest.length ms = .rejected e :: bodies.map landing ++ [.ended] ∧
      ((∀ m ∈ ms, m.session.attached = true) →
        reports (own rest.length ms) = e :: (bodies.map landing).filterMap Arrival.fault?)

/-! What a step of a call reports. -/

section Reports

variable {s : Session} {arrival : Arrival}

theorem untroubled_meet (s : Session) (sound : arrival.fault? = none) : Untroubled s (s.meet arrival) := by
  cases arrival with
  | frame body =>
    simp only [Arrival.fault?] at sound
    simp only [meet, route]
    split at sound
    · cases sound
    · rename_i message read
      simp only [read]
      split
      · contradiction
      · exact s.untroubled_correlate _ _
      · exact .still rfl rfl
      · split
        · exact s.untroubled_handleRequest _ _ _ _
        · exact s.untroubled_refuseEarly _ _
      · split
        · exact s.untroubled_handleNotification _ _ _
        · exact .still rfl rfl
  | rejected e => cases sound
  | failed e => exact s.untroubled_stop _
  | ended => exact s.untroubled_stop _
  | starved phase => exact .still rfl rfl

theorem report_meet (s : Session) (arrival : Arrival) :
    (s.meet arrival).events.filterMap Event.report? = if s.attached then arrival.fault?.toList else [] := by
  cases faulty : arrival.fault? with
  | none =>
    rw [(untroubled_meet s faulty).unreported]
    exact (ite_self _).symm
  | some e =>
    rw [meet_of_fault s faulty]
    cases attached : s.attached <;> simp only [reportFrame, attached] <;> rfl

theorem report_of_arrival {m : Moment} (arrived : m.arrival? = some arrival) :
    m.turn.events.filterMap Event.report? = if m.session.attached then arrival.fault?.toList else [] := by
  obtain ⟨notes, turn⟩ := turn_of_arrival arrived
  have events : m.turn.events = notes.map noteEvent ++ (m.session.meet arrival).events ++ [] := by
    rw [turn]
    rfl
  rw [events, List.append_nil, List.filterMap_append, filterMap_notes Event.report? fun _ => rfl,
    List.nil_append, report_meet]

end Reports

section Course

variable {s t : Session} {input : List (Supply Op)} {expected : List Arrival} {rest agenda : List Task}
  {ms : List Moment}

theorem report_of_own (smooth : Smooth input) (delivers : Frame.Delivers .start (octets input) expected)
    (course : Course s (.perform (.serve input) :: rest) ms t agenda) (unreturned : Unreturned rest.length ms)
    {m : Moment} (member : m ∈ own rest.length ms) : m.turn.events.filterMap Event.report? =
      if m.session.attached then (m.arrival?.bind Arrival.fault?).toList else [] := by
  cases arrived : m.arrival? with
  | some arrival => exact report_of_arrival arrived
  | none =>
    obtain ⟨_, _, _, stands⟩ := stands_of_own smooth delivers course unreturned member
    rw [unreported_of_stands stands arrived]
    exact (ite_self _).symm

theorem reports_own (smooth : Smooth input) (delivers : Frame.Delivers .start (octets input) expected)
    (course : Course s (.perform (.serve input) :: rest) ms t agenda) (unreturned : Unreturned rest.length ms)
    (attached : ∀ m ∈ ms, m.session.attached = true) :
    reports (own rest.length ms) = (arrivals rest.length ms).filterMap Arrival.fault? := by
  have each (m : Moment) (member : m ∈ own rest.length ms) :
      m.turn.events.filterMap Event.report? = (m.arrival?.bind Arrival.fault?).toList := by
    rw [report_of_own smooth delivers course unreturned member, if_pos (attached m (List.mem_of_mem_filter member))]
  rw [reports, seen, List.filterMap_flatMap, List.flatMap_congr each, ← List.filterMap_eq_flatMap_toList,
    arrivals, List.filterMap_filterMap]

end Course

/-! Two streams, one with the block and the text and one without. -/

section Streams

variable {s : Session} {bytes others : List UInt8} {input : List (Supply Op)}

theorem execute_bytes (n : Nat) (s : Session) (bytes : List UInt8) (input : List (Supply Op)) :
    s.execute (n + 2) (.serve (.bytes bytes :: input)) = s.run n [.receive .start bytes input] := rfl

theorem receive_noting {notes : List Frame.Note}
    (same : Frame.next .start bytes input.isEmpty = (Frame.next .start others input.isEmpty).noting notes) :
    s.receive .start bytes input = (s.receive .start others input).behind (notes.map noteEvent) := by
  simp only [receive, same, Frame.Step.noting, List.map_append]
  split <;> simp only [Turn.andThen, Turn.behind, List.append_assoc]

theorem receive_rejected {notes : List Frame.Note} {e : TransportError} {left : List UInt8}
    (read : Frame.next .start bytes input.isEmpty = ⟨notes, .rejected e, left⟩) :
    s.receive .start bytes input =
      { session := s, events := notes.map noteEvent ++ (s.reportFrame e).events,
        tasks := [.receive .start left input] } := by
  obtain ⟨still, idle⟩ := s.silent_reportFrame e
  simp only [receive, read, Turn.andThen, still, idle, List.append_nil, List.nil_append]

theorem run_behind {block junk : List UInt8} {e : TransportError} {before between : List Frame.Note}
    (rejected : Frame.next .start (block ++ (junk ++ bytes)) input.isEmpty = ⟨before, .rejected e, junk ++ bytes⟩)
    (passed : Frame.next .start (junk ++ bytes) input.isEmpty =
      (Frame.next .start bytes input.isEmpty).noting between) (s : Session) (n : Nat) (tasks : List Task) :
    s.run (n + 2) (.receive .start (block ++ (junk ++ bytes)) input :: tasks) =
      (s.run (n + 1) (.receive .start bytes input :: tasks)).behind
        (before.map noteEvent ++ (s.reportFrame e).events ++ between.map noteEvent) := by
  simp only [run, step, receive_rejected rejected, List.singleton_append, receive_noting passed, Turn.behind,
    List.append_assoc]

end Streams

section Calls

variable {s t : Session} {input : List (Supply Op)} {rest agenda : List Task} {ms : List Moment}
  {bodies : List (List UInt8)} {e : TransportError}

theorem faults_behind (e : TransportError) (bodies : List (List UInt8)) :
    (Arrival.rejected e :: bodies.map landing ++ [Arrival.ended]).filterMap Arrival.fault? =
      e :: (bodies.map landing).filterMap Arrival.fault? := by
  rw [List.filterMap_append]
  exact List.append_nil _

theorem resynchronised_of_standing (smooth : Smooth input)
    (delivers : Frame.Delivers .start (octets input) (.rejected e :: bodies.map landing ++ [.ended]))
    (course : Course s (.perform (.serve input) :: rest) ms t agenda) (unreturned : Unreturned rest.length ms) :
    Resynchronised e bodies rest ms agenda := by
  have standing := standing_of_course smooth delivers course unreturned
  obtain ⟨front, task, left, budget, -, -, met, -⟩ := id standing
  constructor
  · exact ⟨left, met⟩
  · exact fun _ _ _ arrived => turn_of_arrival arrived
  · intro m _ arrived
    obtain ⟨phase, bytes, left, reading⟩ := reading_of_arrival arrived
    obtain ⟨still, once, onward⟩ := turn_of_fault reading arrived rfl
    exact ⟨still, once, _, _, onward⟩
  · intro attached
    rw [reports_own smooth delivers course unreturned attached, ← faults_behind]
    exact List.IsPrefix.filterMap Arrival.fault? ⟨left, met⟩
  · rintro outcome later rfl level
    obtain ⟨everything, last⟩ := standing.ended level
    rw [List.getLast?_concat] at last
    refine ⟨closing_ended (Option.some.inj last).symm, everything, fun attached => ?_⟩
    rw [reports_own smooth delivers course unreturned attached, everything, faults_behind]

end Calls

/-- Behind a block that cannot be used and a text without blank lines or the name of the length,
the frames that were written are read as if neither were there. The block is reported once. -/
theorem resynchronised_of_course {block : List UInt8} {e : TransportError} (unusable : Unusable block e)
    {junk : String} (passable : Passable junk.toList) {bodies : List (List UInt8)} (written : bodies ≠ [])
    (fits : ∀ body ∈ bodies, body.length < 2 ^ 64) {w v : Frame.Writer} (fresh : w.passed = [])
    (wrote : w.Wrote bodies v) :
    (∀ input, Smooth input → octets input = block ++ (Utf8.encode junk ++ v.sink.taken) →
      (∀ s rest ms t agenda, Course s (.perform (.serve input) :: rest) ms t agenda →
        Unreturned rest.length ms → Resynchronised e bodies rest ms agenda) ∧
      ∀ s, Recurs s [.perform (.serve input)] → ∃ n, (s.execute n (.serve input)).tasks = [] ∧
        (s.execute n (.serve input)).events.getLast? = some (.served (.ok ()))) ∧
      ∃ before between : List Frame.Note, ∀ (s : Session) n behind more,
        (∀ tasks, s.run (n + 2)
            (.receive .start (block ++ (Utf8.encode junk ++ (v.sink.taken ++ behind))) more :: tasks) =
          (s.run (n + 1) (.receive .start (v.sink.taken ++ behind) more :: tasks)).behind
            (before.map noteEvent ++ (s.reportFrame e).events ++ between.map noteEvent)) ∧
        s.execute (n + 4) (.serve (.bytes (block ++ (Utf8.encode junk ++ (v.sink.taken ++ behind))) :: more)) =
          (s.execute (n + 3) (.serve (.bytes (v.sink.taken ++ behind) :: more))).behind
            (before.map noteEvent ++ (s.reportFrame e).events ++ between.map noteEvent) := by
  obtain ⟨taken, empty⟩ := List.append_eq_nil_iff.mp fresh
  have stream := wrote.taken empty
  rw [taken, List.nil_append] at stream
  have delivers := Frame.delivers_behind unusable passable written fits
  rw [← stream] at delivers
  constructor
  · intro input smooth supplied
    have supplies : Frame.Delivers .start (octets input) (.rejected e :: bodies.map landing ++ [.ended]) :=
      supplied ▸ delivers
    refine ⟨fun _ _ _ _ _ => resynchronised_of_standing smooth supplies, fun s recurs => ?_⟩
    obtain ⟨n, outcome, left, served, last⟩ := served_of_recurs smooth supplies recurs
    rw [List.getLast?_concat] at last
    obtain rfl := closing_ended (Option.some.inj last).symm
    exact ⟨n, left, served⟩
  · obtain ⟨between, passed⟩ := Frame.next_passed_frames passable written fits
    rw [← stream] at passed
    refine ⟨(Frame.next .start block false).notes, between, fun s n behind more => ?_⟩
    have runs := run_behind (unusable.read _ _) (passed behind more.isEmpty) s n
    refine ⟨runs, ?_⟩
    rw [execute_bytes, execute_bytes]
    exact runs []

/-- A block without a length and its body, before a frame; nobody uses the session. -/
theorem resynchronised_behind_braces :
    Unusable [88, 10, 10] .missingContentLength ∧ Passable "\x7b\x7d".toList ∧
      ∃ v : Frame.Writer, Frame.Writer.Wrote {} [[123, 125]] v ∧
        ∃ n, ((overStream {}).execute n
            (.serve [.bytes ([88, 10, 10] ++ (Utf8.encode "\x7b\x7d" ++ v.sink.taken))])).tasks = [] ∧
          ((overStream {}).execute n
            (.serve [.bytes ([88, 10, 10] ++ (Utf8.encode "\x7b\x7d" ++ v.sink.taken))])).events.getLast? =
              some (.served (.ok ())) := by
  obtain ⟨v, wrote⟩ := Frame.Writer.wrote_generous (w := {}) ⟨rfl, rfl⟩ [[123, 125]]
  have unusable : Unusable [88, 10, 10] .missingContentLength := ⟨rfl, rfl, .inl rfl⟩
  have passable : Passable "\x7b\x7d".toList := by
    refine ⟨by decide, fun before line after same _ _ => ?_⟩
    have newline : '\n' ∈ "\x7b\x7d".toList := by
      rw [same]
      simp
    exact absurd newline (by decide)
  have fits : ∀ body ∈ ([[123, 125]] : List (List UInt8)), body.length < 2 ^ 64 := by simp
  have smooth : Smooth [.bytes ([88, 10, 10] ++ (Utf8.encode "\x7b\x7d" ++ v.sink.taken))] := by simp [Smooth]
  have plain : Plain [.bytes ([88, 10, 10] ++ (Utf8.encode "\x7b\x7d" ++ v.sink.taken))] := by simp [Plain]
  have quiet : Quiet (overStream {}) := ⟨rfl, fun c same => by cases same; rfl⟩
  obtain ⟨calls, -⟩ :=
    resynchronised_of_course unusable passable (List.cons_ne_nil _ _) fits rfl wrote
  obtain ⟨-, returns⟩ := calls _ smooth (List.append_nil _)
  exact ⟨unusable, passable, v, wrote, returns _ (recurs_of_quiet quiet plain)⟩

end Session
end LanguageClient
