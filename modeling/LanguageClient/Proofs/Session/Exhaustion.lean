import LanguageClient.Proofs.Session.Insertion

/-! A call that reads a stream comes to its end, whatever is on the stream.

What goes on behind an arrival has taken some octets for it, and never more than there are. So there
are only so many arrivals, and a call whose handlers and completions return comes back.
-/

set_option autoImplicit false
namespace LanguageClient

open LanguageClient.Frame (Arrival Yields Holds)

namespace Frame

structure Progresses (bytes : List UInt8) : Prop where
  /-- Nothing is left but an end of the octets, however long a body should be. -/
  within : (read bytes).rest <:+ bytes
  takes : (read bytes).arrival.final = false → (read bytes).rest.length < bytes.length
  answers : ∀ phase, (read bytes).arrival ≠ .starved phase
  exhausted : bytes = [] → (read bytes).arrival = .ended

theorem progresses (bytes : List UInt8) : Progresses bytes := by
  have holds : Holds {} bytes (read bytes).arrival (read bytes).rest := holds_nextHeader {} bytes
  exact {
    within := holds.suffix
    takes := holds.shorter
    answers := fun phase => next_ended .start bytes phase
    exhausted := fun none => by
      subst none
      rfl }

def Arrival.failure? : Arrival → Option StreamError
  | .failed e => some e
  | _ => none

/-- How often something is made known of an arrival: a frame is routed, what cannot be used is reported, and
a failure is returned. -/
def Arrival.tidings (arrival : Arrival) : Nat :=
  arrival.body?.toList.length + arrival.fault?.toList.length + arrival.failure?.toList.length

section Tidings

variable {block : Block} {bytes left : List UInt8} {arrival : Arrival} {arrivals : List Arrival}

theorem tidings_of_going (going : arrival.final = false) : arrival.tidings ≤ 2 := by
  have reported : arrival.fault?.toList.length ≤ 1 := by cases arrival.fault? <;> simp
  cases arrival with
  | ended | failed => cases going
  | frame | rejected | starved =>
    simp only [Arrival.tidings, Arrival.body?, Arrival.failure?, Option.toList_none, Option.toList_some,
      List.length_nil, List.length_singleton]
    omega

theorem tidings_of_final (final : arrival.final = true) : arrival.tidings ≤ 1 := by
  cases arrival with
  | ended => exact Nat.zero_le 1
  | failed => exact Nat.le_refl 1
  | frame | rejected | starved => cases final

/-- A frame has a line with its length before the blank one, so it takes two octets at least. -/
theorem Holds.tidings (holds : Holds {} bytes arrival left) : left.length + arrival.tidings ≤ bytes.length := by
  cases holds with
  | ended => exact Nat.zero_le _
  | cutBlock begun => cases begun
  | garbled whole | unusable whole =>
    have some := whole.some
    simp only [Arrival.tidings, Arrival.body?, Arrival.fault?, Arrival.failure?, List.length_append,
      Option.toList_none, Option.toList_some, List.length_nil, List.length_singleton]
    omega
  | oversized _ _ announced | cutBody _ _ announced | body _ _ announced => cases announced
  | header whole _ others =>
    have first := whole.some
    rw [List.length_append]
    cases final : arrival.final with
    | false =>
      have most := tidings_of_going final
      have behind := others.shorter final
      omega
    | true =>
      have most := tidings_of_final final
      have behind := others.suffix.length_le
      omega

theorem Yields.tidings (yields : Yields bytes arrivals) : (arrivals.map Arrival.tidings).sum ≤ bytes.length := by
  induction yields with
  | last holds _ =>
    have first := holds.tidings
    simp only [List.map_cons, List.map_nil, List.sum_cons, List.sum_nil]
    omega
  | more holds _ _ ih =>
    have first := holds.tidings
    simp only [List.map_cons, List.sum_cons]
    omega

theorem Yields.length (yields : Yields bytes arrivals) : arrivals.length ≤ bytes.length + 1 := by
  induction yields with
  | last => simp
  | more holds going _ ih =>
    have shorter := holds.shorter going
    rw [List.length_cons]
    omega

end Tidings
end Frame

namespace Session

/-! Parts of an agenda. -/

section Agenda

variable {s : Session} {tasks : List Task}

theorem run_front {k : Nat} (done : (s.run k tasks).tasks = []) (rest : List Task) :
    ∃ j, (s.run j (tasks ++ rest)).tasks = rest ∧ (s.run j (tasks ++ rest)).session = (s.run k tasks).session ∧
      (s.run j (tasks ++ rest)).events = (s.run k tasks).events := by
  induction k generalizing s tasks with
  | zero =>
    obtain rfl : tasks = [] := done
    exact ⟨0, rfl, rfl, rfl⟩
  | succ k ih =>
    cases tasks with
    | nil => exact ⟨0, rfl, rfl, rfl⟩
    | cons task tasks =>
      obtain ⟨j, left, session, events⟩ := ih done
      rw [List.append_assoc] at left session events
      exact ⟨j + 1, left, session, congrArg ((s.step task).events ++ ·) events⟩

theorem run_behind_front {k : Nat} (busy : (s.run k tasks).tasks ≠ []) (rest : List Task) :
    (s.run k (tasks ++ rest)).tasks = (s.run k tasks).tasks ++ rest := by
  induction k generalizing s tasks with
  | zero => rfl
  | succ k ih =>
    cases tasks with
    | nil => exact absurd rfl busy
    | cons task tasks =>
      have still : ((s.step task).session.run k ((s.step task).tasks ++ tasks)).tasks ≠ [] := busy
      have later := ih still
      rw [List.append_assoc] at later
      exact later

/-- Whatever a run has to do before the last of its tasks is over some time. -/
def Returns (s : Session) (tasks : List Task) : Prop :=
  ∀ n front last, (s.run n tasks).tasks = front ++ [last] →
    ∃ k, ((s.run n tasks).session.run k front).tasks = []

theorem recurs_iff_returns : Recurs s tasks ↔ Returns s tasks := by
  constructor
  · intro recurs n front last left
    by_contra never
    -- The tasks in front of the last one would never be done, so the agenda would never be short enough.
    obtain ⟨m, later, short⟩ := recurs n
    obtain ⟨k, rfl⟩ := Nat.exists_eq_add_of_le later
    have busy : ((s.run n tasks).session.run k front).tasks ≠ [] := fun done => never ⟨k, done⟩
    have waiting := run_behind_front busy [last]
    rw [run_add, left] at short
    simp only [Turn.behind, waiting, List.length_append, List.length_singleton] at short
    exact busy (List.length_eq_zero_iff.mp (by omega))
  · intro returns n
    rcases List.eq_nil_or_concat (s.run n tasks).tasks with none | ⟨front, last, left⟩
    · exact ⟨n, Nat.le_refl n, by simp [none]⟩
    · rw [List.concat_eq_append] at left
      obtain ⟨k, done⟩ := returns n front last left
      obtain ⟨j, alone, -⟩ := run_front done [last]
      refine ⟨n + j, Nat.le_add_right n j, ?_⟩
      rw [run_add, left]
      simp only [Turn.behind, alone, List.length_singleton, Nat.le_refl]

end Agenda

/-! What is made known of a stream. -/

section Course

variable {s t : Session} {input : List (Supply Op)} {expected : List Arrival} {rest agenda : List Task}
  {ms : List Moment}

theorem tidings_of_own (smooth : Smooth input) (delivers : Frame.Delivers .start (octets input) expected)
    (course : Course s (.perform (.serve input) :: rest) ms t agenda) (unreturned : Unreturned rest.length ms)
    {m : Moment} (member : m ∈ own rest.length ms) :
    m.routes?.toList.length + (m.turn.events.filterMap Event.report?).length +
        (m.arrival?.bind Arrival.failure?).toList.length ≤ (m.arrival?.toList.map Arrival.tidings).sum := by
  have told : (m.turn.events.filterMap Event.report?).length ≤ (m.arrival?.bind Arrival.fault?).toList.length := by
    rw [report_of_own smooth delivers course unreturned member]
    split
    · exact Nat.le_refl _
    · exact Nat.zero_le _
  rw [Moment.routes?_eq]
  cases arrived : m.arrival? with
  | some arrival =>
    rw [arrived, Option.bind_some] at told
    simp only [Option.toList_some, List.map_cons, List.map_nil, List.sum_cons, List.sum_nil, Nat.add_zero,
      Arrival.tidings, Option.bind_some]
    omega
  | none => simpa [arrived] using told

theorem tidings_add {ns : List Moment} (each : ∀ m ∈ ns, m.routes?.toList.length +
    (m.turn.events.filterMap Event.report?).length + (m.arrival?.bind Arrival.failure?).toList.length ≤
      (m.arrival?.toList.map Arrival.tidings).sum) :
    (ns.filterMap Moment.routes?).length + (reports ns).length +
        ((ns.filterMap Moment.arrival?).filterMap Arrival.failure?).length ≤
      ((ns.filterMap Moment.arrival?).map Arrival.tidings).sum := by
  induction ns with
  | nil => exact Nat.le_refl 0
  | cons m ns ih =>
    have first := each m List.mem_cons_self
    have others := ih fun k member => each k (List.mem_cons_of_mem m member)
    have split {α : Type} (f : Moment → Option α) : (m :: ns).filterMap f = (f m).toList ++ ns.filterMap f := by
      cases same : f m <;> simp [same]
    have told : reports (m :: ns) = m.turn.events.filterMap Event.report? ++ reports ns := by
      simp [reports, seen]
    rw [List.filterMap_filterMap] at others ⊢
    rw [split, split, split, told, List.map_append, List.sum_append, List.length_append, List.length_append,
      List.length_append]
    omega

/-- How far a call is at most: it meets what is on the stream, and makes known no more than there are octets. -/
structure Limited (input : List (Supply Op)) (expected : List Arrival) (rest : List Task) (ms : List Moment)
    (agenda : List Task) : Prop where
  met : arrivals rest.length ms <+: expected
  /-- Frames are routed, errors are reported, and one may be returned. -/
  known : ((own rest.length ms).filterMap Moment.routes?).length + (reports (own rest.length ms)).length +
    ((arrivals rest.length ms).filterMap Arrival.failure?).length ≤ (octets input).length
  steps : (own rest.length ms).length ≤ input.length + (octets input).length + 2
  returned : ∀ outcome later, agenda = .stopped outcome :: later → later.length = rest.length →
    arrivals rest.length ms = expected ∧ expected.getLast? = some (closing outcome)

theorem limited_of_course (smooth : Smooth input) (delivers : Frame.Delivers .start (octets input) expected)
    (yields : Yields (octets input) expected) (course : Course s (.perform (.serve input) :: rest) ms t agenda)
    (unreturned : Unreturned rest.length ms) : Limited input expected rest ms agenda := by
  have standing := standing_of_course smooth delivers course unreturned
  obtain ⟨front, task, left, budget, -, -, met, enough⟩ := id standing
  have few := yields.length
  have all := yields.tidings
  have known := tidings_add fun m member => tidings_of_own smooth delivers course unreturned member
  have part : ((arrivals rest.length ms).map Arrival.tidings).sum ≤ (expected.map Arrival.tidings).sum := by
    rw [← met, List.map_append, List.sum_append]
    exact Nat.le_add_right _ _
  exact {
    met := ⟨left, met⟩
    known := known.trans (part.trans all)
    steps := by omega
    returned := fun _ _ same level => Standing.ended (same ▸ standing) level }

end Course

/-- What a stream has to tell is over some time. Every frame and every error takes something of the octets
that are left, and no more than there are; where nothing is left the call stops. So a call makes known no more
than the stream has octets, and it comes back if all that it sets off does. -/
theorem over_of_course {input : List (Supply Op)} (smooth : Smooth input) :
    (∀ bytes, Frame.Progresses bytes) ∧ (∀ s : Session, s.step (.receive .start [] []) = s.stop (.ok ())) ∧
    ∃ expected, Yields (octets input) expected ∧
      (∀ s rest ms t agenda, Course s (.perform (.serve input) :: rest) ms t agenda →
        Unreturned rest.length ms → Limited input expected rest ms agenda) ∧
      ∀ s, Returns s [.perform (.serve input)] → ∀ rest, ∃ n outcome,
        (s.run n (.perform (.serve input) :: rest)).tasks = rest ∧
          (s.run n (.perform (.serve input) :: rest)).events.getLast? = some (.served outcome) ∧
            expected.getLast? = some (closing outcome) := by
  obtain ⟨expected, delivers, yields⟩ := Frame.delivers_of_bytes (octets input)
  refine ⟨Frame.progresses, fun _ => rfl, expected, yields, fun _ _ _ _ _ course unreturned =>
    limited_of_course smooth delivers yields course unreturned, fun s returns rest => ?_⟩
  obtain ⟨k, outcome, done, served, last⟩ := served_of_recurs smooth delivers (recurs_iff_returns.mpr returns)
  obtain ⟨n, left, -, events⟩ := run_front done rest
  exact ⟨n, outcome, left, (congrArg List.getLast? events).trans served, last⟩

/-- A body of the largest length there is, of which only two octets come: they are passed over, the error is
reported, and the call comes back. -/
theorem over_in_endless_body :
    let n := 2 ^ 64 - 1
    let bytes := Frame.lengthOctets n ++ 10 :: 13 :: 10 :: [97, 98]
    Yields bytes [.rejected (.frameTooLarge n Frame.bodyLimit), .ended] ∧
      ∃ k, ((overStream {}).run k [.perform (.serve [.bytes bytes])]).tasks = [] ∧
        ((overStream {}).run k [.perform (.serve [.bytes bytes])]).events.getLast? = some (.served (.ok ())) := by
  intro n bytes
  have smooth : Smooth [.bytes bytes] := by simp [Smooth]
  have plain : Plain [.bytes bytes] := by simp [Plain]
  have quiet : Quiet (overStream {}) := ⟨rfl, fun c same => by cases same; rfl⟩
  have large : Frame.bodyLimit < n := by decide
  have read := Frame.next_header (n := n) (by decide) [97, 98] true
  rw [if_pos large] at read
  have passed : Yields bytes [.rejected (.frameTooLarge n Frame.bodyLimit), .ended] :=
    .more (Frame.holds_iff.mpr ⟨congrArg Frame.Step.arrival read, congrArg Frame.Step.rest read⟩) rfl
      (.last (.ended rfl) rfl)
  obtain ⟨-, -, expected, yields, -, returns⟩ := over_of_course smooth
  have alone := recurs_iff_returns.mp (recurs_of_quiet quiet plain)
  obtain ⟨k, outcome, left, served, last⟩ := returns _ alone []
  have whole : octets [.bytes bytes] = bytes := List.append_nil _
  rw [whole] at yields
  obtain rfl := passed.unique yields
  have fine : outcome = .ok () := closing_ended (Option.some.inj last).symm
  exact ⟨passed, k, left, fine ▸ served⟩

end Session
end LanguageClient
