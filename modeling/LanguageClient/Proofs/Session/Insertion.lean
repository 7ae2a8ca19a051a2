import LanguageClient.Proofs.Session.Resynchronisation

/-! Frames that cannot be used, put between the frames of a stream.

What a reading brings depends on the octets and not on their parts. A frame that cannot be used is one
thing more that arrives, and it leaves the session as it was. So a run on the stream with such frames
follows the run without them, and only reports more.
-/

set_option autoImplicit false
namespace LanguageClient

open LanguageClient.Frame (Arrival Phase next landing encode)
open Rpc (RequestId Outcome)

/-- What a reading brings: something arrives, or something is asked for meanwhile. -/
inductive Happening where
  | arrives (arrival : Arrival)
  | acts (op : Op)

namespace Happening

def turn (s : Session) : Happening → Turn
  | arrives arrival => s.meet arrival
  | acts op => { session := s, tasks := [.perform op] }

def final : Happening → Bool
  | arrives arrival => arrival.final
  | acts _ => false

def fault? : Happening → Option TransportError
  | arrives arrival => arrival.fault?
  | acts _ => none

end Happening

def Event.handles (event : Event) : Bool := event.outer && event.report?.isNone

namespace Session

/-- What comes of a stream, of which the octets at hand begin at a place where a frame should start. -/
inductive Brings : List UInt8 → List (Supply Op) → List Happening → Prop where
  | ended {bytes : List UInt8} {input : List (Supply Op)} {arrival : Arrival} :
      (next .start bytes input.isEmpty).arrival.come? = some arrival → arrival.final = true →
      Brings bytes input [.arrives arrival]
  | more {bytes : List UInt8} {input : List (Supply Op)} {arrival : Arrival} {later : List Happening} :
      (next .start bytes input.isEmpty).arrival.come? = some arrival → arrival.final = false →
      Brings (next .start bytes input.isEmpty).rest input later → Brings bytes input (.arrives arrival :: later)
  | part {bytes part : List UInt8} {input : List (Supply Op)} {later : List Happening} :
      (next .start bytes false).arrival.come? = none → Brings (bytes ++ part) input later →
      Brings bytes (.bytes part :: input) later
  | act {bytes : List UInt8} {op : Op} {input : List (Supply Op)} {later : List Happening} :
      (next .start bytes false).arrival.come? = none → Brings bytes input later →
      Brings bytes (.act op :: input) (.acts op :: later)
  | interrupted {bytes : List UInt8} {input : List (Supply Op)} {later : List Happening} :
      (next .start bytes false).arrival.come? = none → Brings bytes input later →
      Brings bytes (.failure .interrupted :: input) later
  | broken {bytes : List UInt8} {fault : StreamFault} {input : List (Supply Op)} :
      (next .start bytes false).arrival.come? = none → fault ≠ .interrupted →
      Brings bytes (.failure fault :: input) [.arrives (.failed ⟨fault, none⟩)]

section Brings

variable {bytes : List UInt8} {input : List (Supply Op)} {arrival : Arrival} {hs : List Happening} {ended : Bool}

theorem rest_shorter (come : (next .start bytes ended).arrival.come? = some arrival)
    (going : arrival.final = false) : (next .start bytes ended).rest.length < bytes.length := by
  have complete : (next .start bytes true).arrival = arrival ∧
      (next .start bytes true).rest = (next .start bytes ended).rest := by
    cases ended with
    | true => exact ⟨(Frame.come?_eq_some.mp come).1, rfl⟩
    | false => simpa using Frame.next_of_come come [] true
  have shorter := (Frame.holds_iff.mpr ⟨rfl, rfl⟩ : Frame.Holds {} bytes (next .start bytes true).arrival _).shorter
  rw [complete.1, complete.2] at shorter
  exact shorter going

theorem brings_of_waiting (waiting : ∀ bytes, (next .start bytes input.isEmpty).arrival.come? = none →
    ∃ hs, Brings bytes input hs) (bytes : List UInt8) : ∃ hs, Brings bytes input hs := by
  induction length : bytes.length using Nat.strongRecOn generalizing bytes with
  | ind n ih =>
  cases come : (next .start bytes input.isEmpty).arrival.come? with
  | none => exact waiting bytes come
  | some arrival =>
    cases final : arrival.final with
    | true => exact ⟨_, .ended come final⟩
    | false =>
      obtain ⟨later, brings⟩ := ih _ (length ▸ rest_shorter come final) _ rfl
      exact ⟨_, .more come final brings⟩

theorem brings_some (input : List (Supply Op)) (bytes : List UInt8) : ∃ hs, Brings bytes input hs := by
  induction input generalizing bytes with
  | nil =>
    refine brings_of_waiting (fun bytes waiting => ?_) bytes
    obtain ⟨phase, starved⟩ := Frame.come?_eq_none.mp waiting
    exact absurd starved (Frame.next_ended _ _ _)
  | cons supply input ih =>
    refine brings_of_waiting (fun bytes waiting => ?_) bytes
    cases supply with
    | bytes part =>
      obtain ⟨later, brings⟩ := ih (bytes ++ part)
      exact ⟨_, .part waiting brings⟩
    | act op =>
      obtain ⟨later, brings⟩ := ih bytes
      exact ⟨_, .act waiting brings⟩
    | failure fault =>
      rcases eq_or_ne fault .interrupted with rfl | other
      · obtain ⟨later, brings⟩ := ih bytes
        exact ⟨_, .interrupted waiting brings⟩
      · exact ⟨_, .broken waiting other⟩

end Brings

/-! Readings. -/

def Waits (begun : List UInt8) (phase : Phase) : Prop :=
  ∀ bytes ended, (next phase bytes ended).Same (next .start (begun ++ bytes) ended)

/-- A reading, and what it is going to bring. -/
inductive Promises : Task → List Happening → Prop where
  | reading {begun bytes : List UInt8} {phase : Phase} {input : List (Supply Op)} {hs : List Happening} :
      Waits begun phase → Brings (begun ++ bytes) input hs → Promises (.receive phase bytes input) hs

inductive Left (h : Happening) : List Happening → List Task → Prop where
  | ended : h.final = true → Left h [] []
  | on {task : Task} {later : List Happening} : h.final = false → Promises task later → Left h later [task]

/-- How many supplies a reading has not touched. -/
def ahead : Task → Nat
  | .receive _ _ input => input.length
  | _ => 0

inductive Reads (s : Session) (supplies : Nat) (turn : Turn) : List Happening → Prop where
  | idle {task : Task} {hs : List Happening} : turn.session = s → turn.events.filter Event.outer = [] →
      turn.tasks = [task] → Promises task hs → ahead task < supplies → Reads s supplies turn hs
  | deals {h : Happening} {rest : List Task} {later : List Happening} : turn.session = (h.turn s).session →
      turn.events.filter Event.outer = (h.turn s).events.filter Event.outer →
      turn.tasks = (h.turn s).tasks ++ rest → Left h later rest → Reads s supplies turn (h :: later)

section Readings

variable {s : Session} {begun bytes : List UInt8} {phase waiting : Phase} {input : List (Supply Op)}
  {arrival : Arrival}

theorem waits_start : Waits [] .start := fun _ _ => ⟨rfl, rfl⟩

theorem Waits.starved (waits : Waits begun phase) (starved : (next phase bytes false).arrival = .starved waiting) :
    Waits (begun ++ bytes) waiting := by
  intro others ended
  rw [List.append_assoc]
  exact (Frame.next_of_starved starved others ended).trans (waits (bytes ++ others) ended)

theorem promises_serve {hs : List Happening} (brings : Brings [] input hs) :
    Promises (.receive .start [] input) hs := .reading waits_start brings

theorem arrival_of_come (s : Session) (later : List Task)
    (come : (next phase bytes input.isEmpty).arrival.come? = some arrival) :
    Moment.arrival? ⟨s, .receive phase bytes input, later⟩ = some arrival := by
  obtain ⟨rfl, arrived⟩ := Frame.come?_eq_some.mp come
  simp only [Moment.arrival?]

theorem step_of_arrival {later : List Task}
    (arrived : Moment.arrival? ⟨s, .receive phase bytes input, later⟩ = some arrival) :
    ∃ notes : List Frame.Note, s.step (.receive phase bytes input) =
      ((s.meet arrival).andThen (readOn (Moment.resumed ⟨s, .receive phase bytes input, later⟩ arrival))).behind
        (notes.map noteEvent) := by
  obtain ⟨notes, turn⟩ := turn_of_arrival arrived
  refine ⟨notes, turn.trans ?_⟩
  simp only [Turn.andThen, Turn.behind, noted, readOn, List.append_nil, List.nil_append]

theorem step_of_starved (starved : (next phase bytes input.isEmpty).arrival = .starved waiting) :
    s.step (.receive phase bytes input) =
      (s.supply waiting input).behind ((next phase bytes input.isEmpty).notes.map noteEvent) := by
  simp only [step, receive, starved, Turn.andThen, Turn.behind, List.nil_append]

theorem outer_behind (turn : Turn) (notes : List Frame.Note) :
    (turn.behind (notes.map noteEvent)).events.filter Event.outer = turn.events.filter Event.outer := by
  rw [Turn.behind, List.filter_append, outer_notes, List.nil_append]

theorem reads_of_arrival {later : List Task} {supplies : Nat} {hs : List Happening} {rest : List Task}
    (arrived : Moment.arrival? ⟨s, .receive phase bytes input, later⟩ = some arrival)
    (resumed : Moment.resumed ⟨s, .receive phase bytes input, later⟩ arrival = rest)
    (left : Left (.arrives arrival) hs rest) :
    Reads s supplies (s.step (.receive phase bytes input)) (.arrives arrival :: hs) := by
  obtain ⟨notes, turn⟩ := step_of_arrival arrived
  rw [turn, resumed]
  refine .deals rfl ?_ rfl left
  rw [outer_behind]
  exact congrArg (List.filter Event.outer) (List.append_nil _)

theorem reads_of_promises {task : Task} {hs : List Happening} (promises : Promises task hs) (s : Session) :
    Reads s (ahead task) (s.step task) hs := by
  obtain ⟨waits, brings⟩ := promises
  rename_i begun bytes phase input
  obtain ⟨same, rest⟩ := waits bytes input.isEmpty
  have idle {more : List UInt8} {others : List (Supply Op)} {waiting : Phase}
      (starved : (next phase bytes input.isEmpty).arrival = .starved waiting)
      (supplied : s.supply waiting input = { session := s, tasks := [.receive waiting more others] })
      (fewer : others.length < input.length) (brings : Brings (begun ++ bytes ++ more) others hs)
      (going : input.isEmpty = false) : Reads s input.length (s.step (.receive phase bytes input)) hs := by
    rw [step_of_starved starved, supplied]
    rw [going] at starved
    refine .idle rfl ?_ rfl (.reading (waits.starved starved) brings) fewer
    rw [outer_behind]
    rfl
  cases brings with
  | ended come final =>
    have arrived := arrival_of_come s [] (same.trans come)
    exact reads_of_arrival arrived (Moment.resumed_of_final final) (.ended final)
  | more come going later =>
    have arrived := arrival_of_come s [] (same.trans come)
    refine reads_of_arrival arrived (Moment.resumed_of_going rfl going) (.on going ?_)
    rw [← rest] at later
    exact .reading waits_start later
  | part come later =>
    obtain ⟨waiting, starved⟩ := Frame.come?_eq_none.mp (same.trans come)
    exact idle starved rfl (Nat.lt_succ_self _) later rfl
  | act come later =>
    obtain ⟨waiting, starved⟩ := Frame.come?_eq_none.mp (same.trans come)
    rw [step_of_starved starved]
    refine .deals rfl ?_ rfl (.on rfl (.reading (waits.starved starved) ?_))
    · rw [outer_behind]
      rfl
    · rwa [List.append_nil]
  | interrupted come later =>
    obtain ⟨waiting, starved⟩ := Frame.come?_eq_none.mp (same.trans come)
    refine idle starved rfl (Nat.lt_succ_self _) ?_ rfl
    rwa [List.append_nil]
  | @broken _ fault input come other =>
    obtain ⟨waiting, starved⟩ := Frame.come?_eq_none.mp (same.trans come)
    have arrived : Moment.arrival? ⟨s, .receive phase bytes (.failure fault :: input), []⟩ =
        some (.failed ⟨fault, none⟩) := by
      simp only [Moment.arrival?, starved, if_neg other]
    exact reads_of_arrival arrived (Moment.resumed_of_final rfl) (.ended rfl)

end Readings

/-! Runs. -/

section Runs

variable {s : Session} {tasks : List Task}

theorem run_add (k n : Nat) (s : Session) (tasks : List Task) :
    s.run (k + n) tasks = ((s.run k tasks).session.run n (s.run k tasks).tasks).behind (s.run k tasks).events := by
  induction k generalizing s tasks with
  | zero => rw [Nat.zero_add]; rfl
  | succ k ih =>
    rw [Nat.succ_add]
    cases tasks with
    | nil => cases n <;> rfl
    | cons task rest => simp only [run, ih, Turn.behind, List.append_assoc]

theorem run_of_step {t : Session} {task : Task} {added : List Task} (session : (s.step task).session = t)
    (tasks : (s.step task).tasks = added) (n : Nat) (back : List Task) :
    s.run (n + 1) (task :: back) = (t.run n (added ++ back)).behind (s.step task).events := by
  subst session tasks
  rfl

/-- A reading gets to what it brings next. -/
theorem deals_of_promises {task : Task} {h : Happening} {later : List Happening}
    (promises : Promises task (h :: later)) (s : Session) (back : List Task) :
    ∃ n rest, (s.run n (task :: back)).session = (h.turn s).session ∧
      (s.run n (task :: back)).events.filter Event.outer = (h.turn s).events.filter Event.outer ∧
      (s.run n (task :: back)).tasks = (h.turn s).tasks ++ rest ++ back ∧ Left h later rest := by
  induction supplies : ahead task using Nat.strongRecOn generalizing task with
  | ind supply ih =>
  generalize promised : h :: later = hs at promises
  have reads := reads_of_promises promises s
  cases reads with
  | @idle next _ still unseen tasks onward fewer =>
    subst promised
    obtain ⟨n, rest, session, events, agenda, left⟩ := ih _ (supplies ▸ fewer) onward rfl
    have first := run_of_step still tasks n back
    refine ⟨n + 1, rest, ?_, ?_, ?_, left⟩
    · rw [first]
      exact session
    · rw [first, Turn.behind, List.filter_append, unseen, List.nil_append]
      exact events
    · rw [first]
      exact agenda
  | @deals _ rest _ session events tasks left =>
    cases promised
    refine ⟨1, rest, session, ?_, ?_, left⟩
    · rw [← events]
      exact congrArg (List.filter Event.outer) (List.append_nil _)
    · exact congrArg (· ++ back) tasks

/-- Things that are brought, with some more among them that cannot be used. -/
inductive Diluted : List Happening → List Happening → Prop where
  | done : Diluted [] []
  | keep {h : Happening} {hs more : List Happening} : Diluted hs more → Diluted (h :: hs) (h :: more)
  | fault {h : Happening} {hs more : List Happening} : h.fault?.isSome = true → Diluted hs more → Diluted hs (h :: more)

theorem Diluted.append_left {hs more : List Happening} (diluted : Diluted hs more) (first : List Happening) :
    Diluted (first ++ hs) (first ++ more) := by
  induction first with
  | nil => exact diluted
  | cons h first ih => exact .keep ih

theorem Diluted.refl (hs : List Happening) : Diluted hs hs := by
  simpa using Diluted.done.append_left hs

/-- Tasks that are the same but for a reading whose stream has more in it that cannot be used. -/
inductive Paired : List Task → List Task → Prop where
  | same (tasks : List Task) : Paired tasks tasks
  | reading {task other : Task} {hs more : List Happening} (front back : List Task) : Promises task hs →
      Promises other more → Diluted hs more → Paired (front ++ task :: back) (front ++ other :: back)

/-- One run does what the other does, and may report more errors. -/
structure Follows (turn other : Turn) : Prop where
  session : other.session = turn.session
  paired : Paired turn.tasks other.tasks
  handled : other.events.filter Event.handles = turn.events.filter Event.handles
  reported : (turn.events.filter Event.outer).Sublist (other.events.filter Event.outer)

theorem handles_of_outer {events others : List Event}
    (same : events.filter Event.outer = others.filter Event.outer) :
    events.filter Event.handles = others.filter Event.handles := by
  have handles (events : List Event) : events.filter Event.handles =
      (events.filter Event.outer).filter fun event => event.report?.isNone := by
    rw [List.filter_filter]
    exact List.filter_congr fun event _ => Bool.and_comm _ _
  rw [handles, handles, same]

theorem turn_of_unusable {h : Happening} (faulty : h.fault?.isSome = true) (s : Session) :
    (h.turn s).session = s ∧ (h.turn s).tasks = [] ∧ (h.turn s).events.filter Event.handles = [] ∧
      h.final = false := by
  cases h with
  | acts op => cases faulty
  | arrives arrival =>
    obtain ⟨e, faulty⟩ := Option.isSome_iff_exists.mp faulty
    have met : (Happening.arrives arrival).turn s = s.reportFrame e := meet_of_fault s faulty
    obtain ⟨still, idle⟩ := s.silent_reportFrame e
    rw [met]
    refine ⟨still, idle, ?_, going_of_fault faulty⟩
    cases attached : s.attached <;> simp only [reportFrame, attached] <;> rfl

theorem deals_of_diluted {h : Happening} {later more : List Happening} (diluted : Diluted (h :: later) more)
    {other : Task} (promises : Promises other more) (s : Session) (back : List Task) :
    ∃ n rest left, Diluted later left ∧ (s.run n (other :: back)).session = (h.turn s).session ∧
      (s.run n (other :: back)).tasks = (h.turn s).tasks ++ rest ++ back ∧ Left h left rest ∧
      (s.run n (other :: back)).events.filter Event.handles = (h.turn s).events.filter Event.handles ∧
      ((h.turn s).events.filter Event.outer).Sublist ((s.run n (other :: back)).events.filter Event.outer) := by
  generalize brought : h :: later = hs at diluted
  induction diluted generalizing other with
  | done => cases brought
  | keep diluted =>
    cases brought
    obtain ⟨n, rest, session, events, tasks, left⟩ := deals_of_promises promises s back
    exact ⟨n, rest, _, diluted, session, tasks, left, handles_of_outer events, events ▸ List.Sublist.refl _⟩
  | @fault extra hs more faulty diluted ih =>
    obtain ⟨still, idle, unseen, going⟩ := turn_of_unusable faulty s
    obtain ⟨k, rest, session, events, tasks, left⟩ := deals_of_promises promises s back
    cases left with
    | ended final => cases going.symm.trans final
    | @on next _ _ onward =>
      obtain ⟨n, rest, left, diluted, done, agenda, behind, handled, reported⟩ := ih onward brought
      rw [still] at session
      rw [idle] at tasks
      have tasks : (s.run k (other :: back)).tasks = next :: back := tasks
      have whole : s.run (k + n) (other :: back) =
          (s.run n (next :: back)).behind (s.run k (other :: back)).events := by
        rw [run_add, session, tasks]
      refine ⟨k + n, rest, left, diluted, ?_, ?_, behind, ?_, ?_⟩
      · rw [whole]
        exact done
      · rw [whole]
        exact agenda
      · rw [whole, Turn.behind, List.filter_append, handles_of_outer events, unseen, List.nil_append]
        exact handled
      · rw [whole, Turn.behind, List.filter_append]
        exact reported.trans (List.sublist_append_right _ _)

theorem Follows.behind {turn other : Turn} (follows : Follows turn other) (events others : List Event)
    (handled : others.filter Event.handles = events.filter Event.handles)
    (reported : (events.filter Event.outer).Sublist (others.filter Event.outer)) :
    Follows (turn.behind events) (other.behind others) where
  session := follows.session
  paired := follows.paired
  handled := by
    simp only [Turn.behind, List.filter_append, handled, follows.handled]
  reported := by
    simp only [Turn.behind, List.filter_append]
    exact reported.append follows.reported

/-- Where nothing is shown on the one side, the other need not move. -/
theorem Follows.stalled {turn other : Turn} (follows : Follows turn other) {events : List Event}
    (unseen : events.filter Event.outer = []) : Follows (turn.behind events) other := by
  have unhandled : events.filter Event.handles = [] := @handles_of_outer _ [] unseen
  exact follows.behind events [] unhandled.symm (by rw [unseen]; rfl)

theorem Follows.ahead {turn other : Turn} (follows : Follows turn other) {others : List Event}
    (unhandled : others.filter Event.handles = []) : Follows turn (other.behind others) :=
  follows.behind [] others unhandled (List.nil_sublist _)

theorem paired_behind {h : Happening} {later more : List Happening} {rest others : List Task}
    (front back : List Task) (diluted : Diluted later more) (left : Left h later rest) (behind : Left h more others) :
    Paired (front ++ rest ++ back) (front ++ others ++ back) := by
  cases left with
  | ended final =>
    cases behind with
    | ended => exact .same _
    | on going => cases going.symm.trans final
  | on going promised =>
    cases behind with
    | ended final => cases going.symm.trans final
    | on _ further =>
      rw [List.append_assoc, List.append_assoc]
      exact .reading front back promised further diluted

/-- However far the one run gets, the other gets there as well. -/
theorem follows_of_paired {tasks others : List Task} (paired : Paired tasks others) (n : Nat) (s : Session) :
    ∃ k, Follows (s.run n tasks) (s.run k others) := by
  induction n generalizing s tasks others with
  | zero => exact ⟨0, rfl, paired, rfl, .slnil⟩
  | succ n ih =>
    cases paired with
    | same => exact ⟨n + 1, rfl, .same _, rfl, .refl _⟩
    | @reading task other hs more front back promises further diluted =>
      cases front with
      | cons first front =>
        have onward := Paired.reading ((s.step first).tasks ++ front) back promises further diluted
        rw [List.append_assoc, List.append_assoc] at onward
        obtain ⟨k, follows⟩ := ih onward (s.step first).session
        exact ⟨k + 1, follows.behind _ _ rfl (.refl _)⟩
      | nil =>
        have reads := reads_of_promises promises s
        cases reads with
        | @idle next _ still unseen tasks onward _ =>
          obtain ⟨k, follows⟩ := ih (.reading [] back onward further diluted) s
          rw [List.nil_append, run_of_step still tasks]
          exact ⟨k, follows.stalled unseen⟩
        | @deals h rest later session events tasks left =>
          obtain ⟨k, others, after, diluted, done, agenda, behind, handled, reported⟩ :=
            deals_of_diluted diluted further s back
          obtain ⟨m, follows⟩ := ih (paired_behind (h.turn s).tasks back diluted left behind) (h.turn s).session
          refine ⟨k + m, ?_⟩
          rw [List.nil_append, List.nil_append, run_of_step session tasks, run_add, done, agenda]
          exact follows.behind _ _ (handled.trans (handles_of_outer events).symm) (events ▸ reported)

/-- However far the other run gets, the one gets there as well, unless it is there already. -/
theorem leads_of_paired {tasks others : List Task} (paired : Paired tasks others) (k : Nat) (s : Session) :
    ∃ n, Follows (s.run n tasks) (s.run k others) := by
  induction k generalizing s tasks others with
  | zero => exact ⟨0, rfl, paired, rfl, .slnil⟩
  | succ k ih =>
    cases paired with
    | same => exact ⟨k + 1, rfl, .same _, rfl, .refl _⟩
    | @reading task other hs more front back promises further diluted =>
      cases front with
      | cons first front =>
        have onward := Paired.reading ((s.step first).tasks ++ front) back promises further diluted
        rw [List.append_assoc, List.append_assoc] at onward
        obtain ⟨n, follows⟩ := ih onward (s.step first).session
        exact ⟨n + 1, follows.behind _ _ rfl (.refl _)⟩
      | nil =>
        have reads := reads_of_promises further s
        cases reads with
        | @idle next _ still unseen tasks onward _ =>
          obtain ⟨n, follows⟩ := ih (.reading [] back promises onward diluted) s
          rw [List.nil_append, List.nil_append, run_of_step still tasks]
          exact ⟨n, follows.ahead (@handles_of_outer _ [] unseen)⟩
        | @deals h rest later session events tasks left =>
          have first := run_of_step session tasks k back
          cases diluted with
          | fault faulty diluted =>
            obtain ⟨still, idle, unseen, going⟩ := turn_of_unusable faulty s
            cases left with
            | ended final => cases going.symm.trans final
            | on _ onward =>
              obtain ⟨n, follows⟩ := ih (.reading [] back promises onward diluted) s
              rw [still, idle] at first
              rw [List.nil_append, List.nil_append, first]
              exact ⟨n, follows.ahead ((handles_of_outer events).trans unseen)⟩
          | keep diluted =>
            obtain ⟨n, others, done, same, agenda, behind⟩ := deals_of_promises promises s back
            obtain ⟨m, follows⟩ := ih (paired_behind (h.turn s).tasks back diluted behind left) (h.turn s).session
            refine ⟨n + m, ?_⟩
            rw [List.nil_append, List.nil_append, first, run_add, done, agenda]
            exact follows.behind _ _ (handles_of_outer (events.trans same.symm))
              (by rw [same, events])

end Runs

/-! Streams. -/

inductive Completes : List UInt8 → List Arrival → List UInt8 → Prop where
  | begun {bytes : List UInt8} : (next .start bytes false).arrival.come? = none → Completes bytes [] bytes
  | frame {bytes left : List UInt8} {arrival : Arrival} {arrivals : List Arrival} :
      (next .start bytes false).arrival.come? = some arrival → arrival.final = false →
      Completes (next .start bytes false).rest arrivals left → Completes bytes (arrival :: arrivals) left

/-- A stream with more frames in it that cannot be used, each put where no frame is begun; `begun` is
what has come of a frame before it. The octets may come in other parts. -/
inductive Stuffed : List UInt8 → List (Supply Op) → List (Supply Op) → Prop where
  | same (begun : List UInt8) (input : List (Supply Op)) : Stuffed begun input input
  | put {frame : List UInt8} {arrival : Arrival} {e : TransportError} {input more : List (Supply Op)} :
      Frame.Whole frame arrival → arrival.fault? = some e → Stuffed [] input more →
      Stuffed [] input (.bytes frame :: more)
  | part {begun part left : List UInt8} {arrivals : List Arrival} {input more : List (Supply Op)} :
      Completes (begun ++ part) arrivals left → Stuffed left input more →
      Stuffed begun (.bytes part :: input) (.bytes part :: more)
  | act {begun : List UInt8} {input more : List (Supply Op)} (op : Op) : Stuffed begun input more →
      Stuffed begun (.act op :: input) (.act op :: more)
  | failure {begun : List UInt8} {input more : List (Supply Op)} (fault : StreamFault) :
      Stuffed begun input more → Stuffed begun (.failure fault :: input) (.failure fault :: more)
  | cut {begun part other : List UInt8} {input more : List (Supply Op)} :
      Stuffed begun (.bytes part :: .bytes other :: input) more →
      Stuffed begun (.bytes (part ++ other) :: input) more
  | join {begun part other : List UInt8} {input more : List (Supply Op)} :
      Stuffed begun input (.bytes part :: .bytes other :: more) →
      Stuffed begun input (.bytes (part ++ other) :: more)

section Streams

variable {bytes begun left : List UInt8} {input more : List (Supply Op)} {arrival : Arrival}
  {arrivals : List Arrival} {hs : List Happening}

theorem brings_come (come : (next .start bytes input.isEmpty).arrival.come? = some arrival) :
    Brings bytes input hs ↔ arrival.final = true ∧ hs = [.arrives arrival] ∨ arrival.final = false ∧
      ∃ later, hs = .arrives arrival :: later ∧ Brings (next .start bytes input.isEmpty).rest input later := by
  constructor
  · intro brings
    cases brings with
    | ended other final =>
      obtain rfl := Option.some.inj (come.symm.trans other)
      exact .inl ⟨final, rfl⟩
    | more other going later =>
      obtain rfl := Option.some.inj (come.symm.trans other)
      exact .inr ⟨going, _, rfl, later⟩
    | part waiting | act waiting | interrupted waiting | broken waiting => cases come.symm.trans waiting
  · rintro (⟨final, rfl⟩ | ⟨going, later, rfl, brings⟩)
    · exact .ended come final
    · exact .more come going brings

theorem brings_part (bytes part : List UInt8) :
    Brings bytes (.bytes part :: input) hs ↔ Brings (bytes ++ part) input hs := by
  induction length : bytes.length using Nat.strongRecOn generalizing bytes hs with
  | ind n ih =>
  cases come : (next .start bytes false).arrival.come? with
  | none =>
    constructor
    · intro brings
      cases brings with
      | part _ brings => exact brings
      | ended other | more other => cases come.symm.trans other
    · exact .part come
  | some arrival =>
    obtain ⟨other, rest⟩ := Frame.come_append come part input.isEmpty
    have first : (next .start bytes (Supply.bytes part :: input).isEmpty).arrival.come? = some arrival := come
    rw [brings_come first, brings_come other, rest]
    refine or_congr_right (and_congr_right fun going => exists_congr fun later => and_congr_right fun _ => ?_)
    exact ih _ (length ▸ rest_shorter come going) _ rfl

theorem brings_completed (completes : Completes bytes arrivals left) :
    Brings bytes input hs ↔ ∃ later, hs = arrivals.map .arrives ++ later ∧ Brings left input later := by
  induction completes generalizing hs with
  | begun => simp
  | @frame bytes left arrival arrivals come going completes ih =>
    obtain ⟨other, rest⟩ := Frame.come_append come [] input.isEmpty
    rw [List.append_nil] at other rest
    rw [brings_come other, rest, List.append_nil]
    simp [going, ih]

theorem waiting_of_completes (completes : Completes bytes arrivals left) :
    (next .start left false).arrival.come? = none := by
  induction completes with
  | begun waiting => exact waiting
  | frame _ _ _ ih => exact ih

theorem brings_of_stuffed (stuffed : Stuffed begun input more)
    (waiting : (next .start begun false).arrival.come? = none) (brings : Brings begun input hs) :
    ∃ others, Brings begun more others ∧ Diluted hs others := by
  induction stuffed generalizing hs with
  | same => exact ⟨hs, brings, .refl hs⟩
  | @put frame arrival e input more whole faulty _ ih =>
    -- No frame is begun here, so the one that is put in arrives whole and takes none of what follows.
    obtain ⟨others, brings, diluted⟩ := ih waiting brings
    refine ⟨.arrives arrival :: others, ?_, .fault (by simp [Happening.fault?, faulty]) diluted⟩
    have going := going_of_fault faulty
    have empty : Completes (next .start frame false).rest [] [] := by
      rw [whole.rest]
      exact .begun rfl
    have complete := Completes.frame (whole.come (by rintro phase rfl; cases faulty)) going empty
    exact (brings_part [] frame).mpr ((brings_completed complete).mpr ⟨others, rfl, brings⟩)
  | part completes _ ih =>
    obtain ⟨later, rfl, onward⟩ := (brings_completed completes).mp ((brings_part _ _).mp brings)
    obtain ⟨others, further, diluted⟩ := ih (waiting_of_completes completes) onward
    refine ⟨_, (brings_part _ _).mpr ((brings_completed completes).mpr ⟨others, rfl, further⟩), ?_⟩
    exact diluted.append_left _
  | act op _ ih =>
    cases brings with
    | act _ brings =>
      obtain ⟨others, brings, diluted⟩ := ih waiting brings
      exact ⟨_, .act waiting brings, .keep diluted⟩
    | ended come | more come => cases waiting.symm.trans come
  | failure fault _ ih =>
    cases brings with
    | interrupted _ brings =>
      obtain ⟨others, brings, diluted⟩ := ih waiting brings
      exact ⟨_, .interrupted waiting brings, diluted⟩
    | broken _ other => exact ⟨_, .broken waiting other, .refl _⟩
    | ended come | more come => cases waiting.symm.trans come
  -- How the octets are parted decides nothing.
  | cut _ ih =>
    refine ih waiting ((brings_part _ _).mpr ((brings_part _ _).mpr ?_))
    rw [List.append_assoc]
    exact (brings_part _ _).mp brings
  | join _ ih =>
    obtain ⟨others, brings, diluted⟩ := ih waiting brings
    have brings := (brings_part _ _).mp ((brings_part _ _).mp brings)
    rw [List.append_assoc] at brings
    exact ⟨others, (brings_part _ _).mpr brings, diluted⟩

end Streams

/-! Calls. -/

/-- A step that reads something and does nothing about it, but perhaps reports it. The whole session
stays: what waits for an answer, the next id, whether it is closed, what was written, who is there. -/
structure Ignored (m : Moment) (reported : Option TransportError) : Prop where
  session : m.turn.session = m.session
  events : m.turn.events.filter Event.outer =
    if m.session.attached then reported.toList.map Event.transportError else []
  onward : ∃ behind left, m.turn.tasks = [.receive .start behind left]

/-- How far a call is with a stream that holds these arrivals: each is met once, and those that cannot be
used are reported to whoever is attached, once each; no other step of the call reports anything. -/
structure Reported (expected : List Arrival) (rest : List Task) (ms : List Moment) (agenda : List Task) : Prop where
  met : arrivals rest.length ms <+: expected
  reported : ∀ m ∈ own rest.length ms, m.turn.events.filterMap Event.report? =
    if m.session.attached then (m.arrival?.bind Arrival.fault?).toList else []
  returned : ∀ outcome later, agenda = .stopped outcome :: later → later.length = rest.length →
    arrivals rest.length ms = expected

/-- Two runs that leave the same session and show the same, but for the log and for errors that only the
other one reports. -/
structure Alike (turn other : Turn) : Prop where
  session : other.session = turn.session
  finished : other.tasks = [] ↔ turn.tasks = []
  handled : other.events.filter Event.handles = turn.events.filter Event.handles
  reported : (turn.events.filter Event.outer).Sublist (other.events.filter Event.outer)

section Calls

variable {m : Moment} {input more : List (Supply Op)}

theorem ignored_of_fault {arrival : Arrival} {e : TransportError} (arrived : m.arrival? = some arrival)
    (faulty : arrival.fault? = some e) : Ignored m (some e) := by
  obtain ⟨phase, bytes, left, reading⟩ := reading_of_arrival arrived
  obtain ⟨still, once, onward⟩ := turn_of_fault reading arrived faulty
  exact ⟨still, once, _, _, onward⟩

theorem ignored_of_logged {body : List UInt8} (routed : m.routes? = some body)
    (logged : ∃ record, m.session.route body = { session := m.session, events := [.log record] }) :
    Ignored m none := by
  obtain ⟨record, logged⟩ := logged
  have arrived := Moment.routes?_eq_some.mp routed
  obtain ⟨phase, bytes, left, reading⟩ := reading_of_arrival arrived
  obtain ⟨notes, turn⟩ := turn_of_arrival arrived
  have met : m.session.meet (.frame body) = { session := m.session, events := [.log record] } := logged
  have whole : m.turn = ⟨m.session, notes.map noteEvent ++ [.log record], m.resumed (.frame body)⟩ := by
    rw [turn]
    simp only [Turn.andThen, noted, met, readOn, List.append_nil, List.nil_append]
  rw [Moment.resumed_of_going reading rfl] at whole
  refine ⟨by rw [whole], ?_, _, _, by rw [whole]⟩
  rw [whole, List.filter_append, outer_notes]
  cases m.session.attached <;> rfl

theorem ignored_response {body : List UInt8} {outcome : Outcome} (routed : m.routes? = some body)
    (read : Rpc.Message.ofBytes body = .ok (.response none outcome)) : Ignored m none := by
  refine ignored_of_logged routed ?_
  simp only [route, read]
  exact ⟨_, rfl⟩

theorem ignored_stranger {body : List UInt8} {id : RequestId} {outcome : Outcome} (routed : m.routes? = some body)
    (read : Rpc.Message.ofBytes body = .ok (.response (some id) outcome))
    (unknown : ∀ c, m.session.transport = .connection c → c.pending.lookup id = none) : Ignored m none := by
  refine ignored_of_logged routed ?_
  cases carrier : m.session.transport with
  | scripted peer =>
    simp only [route, read, correlate, carrier]
    exact ⟨_, rfl⟩
  | connection c =>
    simp only [route, read, correlate, carrier, Connection.take?, unknown c carrier, Option.map_none]
    exact ⟨_, rfl⟩

theorem reported_of_standing {expected : List Arrival} {s t : Session} {rest agenda : List Task}
    {ms : List Moment} (smooth : Smooth input) (delivers : Frame.Delivers .start (octets input) expected)
    (course : Course s (.perform (.serve input) :: rest) ms t agenda) (unreturned : Unreturned rest.length ms) :
    Reported expected rest ms agenda := by
  have standing := standing_of_course smooth delivers course unreturned
  constructor
  · obtain ⟨front, task, left, budget, -, -, met, -⟩ := standing
    exact ⟨left, met⟩
  · exact fun m member => report_of_own smooth delivers course unreturned member
  · rintro outcome later rfl level
    exact (standing.ended level).1

theorem Follows.alike {turn other : Turn} (follows : Follows turn other) : Alike turn other where
  session := follows.session
  finished := by
    have paired := follows.paired
    generalize turn.tasks = tasks at paired
    generalize other.tasks = others at paired
    cases paired with
    | same => exact .rfl
    | reading front back => simp
  handled := follows.handled
  reported := follows.reported

theorem alike_start (s : Session) (input more : List (Supply Op)) (rest : List Task) :
    Alike (s.run 0 (.perform (.serve input) :: rest)) (s.run 0 (.perform (.serve more) :: rest)) :=
  ⟨rfl, by simp [run], rfl, .slnil⟩

theorem alike_of_stuffed (stuffed : Stuffed [] input more) (s : Session) (rest : List Task) :
    (∀ n, ∃ k, Alike (s.run n (.perform (.serve input) :: rest)) (s.run k (.perform (.serve more) :: rest))) ∧
      ∀ k, ∃ n, Alike (s.run n (.perform (.serve input) :: rest)) (s.run k (.perform (.serve more) :: rest)) := by
  obtain ⟨hs, brings⟩ := brings_some input []
  obtain ⟨others, further, diluted⟩ := brings_of_stuffed stuffed rfl brings
  have paired : Paired (.receive .start [] input :: rest) (.receive .start [] more :: rest) :=
    .reading [] rest (promises_serve brings) (promises_serve further) diluted
  constructor
  · intro n
    cases n with
    | zero => exact ⟨0, alike_start s input more rest⟩
    | succ n =>
      obtain ⟨k, follows⟩ := follows_of_paired paired n s
      exact ⟨k + 1, follows.alike⟩
  · intro k
    cases k with
    | zero => exact ⟨0, alike_start s input more rest⟩
    | succ k =>
      obtain ⟨n, follows⟩ := leads_of_paired paired k s
      exact ⟨n + 1, follows.alike⟩

/-- Input that cannot be used changes nothing but the list of errors: it is reported once to whoever is
attached, and the session stays as it was, as it does with a response that is for nobody. So a stream with
such frames anywhere between its frames is handled like the stream without them. -/
theorem unchanged_by_rejected :
    (∀ (m : Moment) (arrival : Arrival) (e : TransportError), m.arrival? = some arrival →
      arrival.fault? = some e → Ignored m (some e)) ∧
    (∀ (m : Moment) (body : List UInt8) (outcome : Outcome), m.routes? = some body →
      Rpc.Message.ofBytes body = .ok (.response none outcome) → Ignored m none) ∧
    (∀ (m : Moment) (body : List UInt8) (id : RequestId) (outcome : Outcome), m.routes? = some body →
      Rpc.Message.ofBytes body = .ok (.response (some id) outcome) →
      (∀ c, m.session.transport = .connection c → c.pending.lookup id = none) → Ignored m none) ∧
    (∀ input : List (Supply Op), Smooth input → ∃ expected, Frame.Yields (octets input) expected ∧
      ∀ s rest ms t agenda, Course s (.perform (.serve input) :: rest) ms t agenda →
        Unreturned rest.length ms → Reported expected rest ms agenda) ∧
    ∀ input more : List (Supply Op), Stuffed [] input more → ∀ (s : Session) (rest : List Task),
      (∀ n, ∃ k, Alike (s.run n (.perform (.serve input) :: rest)) (s.run k (.perform (.serve more) :: rest))) ∧
      ∀ k, ∃ n, Alike (s.run n (.perform (.serve input) :: rest)) (s.run k (.perform (.serve more) :: rest)) := by
  refine ⟨fun _ _ _ => ignored_of_fault, fun _ _ _ => ignored_response, fun _ _ _ _ => ignored_stranger, ?_,
    fun _ _ => alike_of_stuffed⟩
  intro input smooth
  obtain ⟨expected, delivers, yields⟩ := Frame.delivers_of_bytes (octets input)
  exact ⟨expected, yields, fun _ _ _ _ _ => reported_of_standing smooth delivers⟩

end Calls

/-! Written frames. -/

section Written

variable {bodies : List (List UInt8)}

theorem completes_frames (fits : ∀ body ∈ bodies, body.length < 2 ^ 64) :
    Completes (bodies.flatMap encode) (bodies.map landing) [] := by
  induction bodies with
  | nil => exact .begun rfl
  | cons body bodies ih =>
    obtain ⟨arrived, rest⟩ := Frame.next_encode (fits body List.mem_cons_self) (bodies.flatMap encode) false
    have come : (next .start (encode body ++ bodies.flatMap encode) false).arrival.come? =
        some (landing body) := by
      rw [arrived]
      unfold landing
      split <;> rfl
    rw [List.flatMap_cons, List.map_cons]
    refine .frame come (Frame.final_landing body) ?_
    rw [rest]
    exact ih fun body member => fits body (List.mem_cons_of_mem _ member)

theorem stuffed_behind (fits : ∀ body ∈ bodies, body.length < 2 ^ 64) {frame : List UInt8} {arrival : Arrival}
    {e : TransportError} (whole : Frame.Whole frame arrival) (faulty : arrival.fault? = some e)
    (bytes : List UInt8) (input : List (Supply Op)) :
    Stuffed [] (.bytes (bodies.flatMap encode ++ bytes) :: input)
      (.bytes (bodies.flatMap encode ++ (frame ++ bytes)) :: input) := by
  have put : Stuffed [] (.bytes bytes :: input) (.bytes (frame ++ bytes) :: input) :=
    .join (.put whole faulty (.same [] _))
  exact .cut (.join (.part (completes_frames fits) put))

end Written

/-- An empty frame, an answer without an id and one to nobody; and the empty frame before another one. -/
theorem unchanged_by_empty_frame :
    let answer : List UInt8 := [0x7b, 0x7d]
    let stray : List UInt8 := [0x7b, 0x22, 0x69, 0x64, 0x22, 0x3a, 0x31, 0x7d]
    let reading (body : List UInt8) : Moment := ⟨overStream {}, .receive .start (encode body) [], []⟩
    let input : List (Supply Op) := [.bytes ([answer].flatMap encode ++ encode stray)]
    let more : List (Supply Op) := [.bytes ([answer].flatMap encode ++ (encode [] ++ encode stray))]
    (∃ e, Ignored (reading []) (some e)) ∧ Ignored (reading answer) none ∧ Ignored (reading stray) none ∧
      Reported [.rejected .missingContentLength, .ended] [] [] [.perform (.serve [.bytes [10]])] ∧
        ∀ n, ∃ k, Alike ((overStream {}).run n [.perform (.serve input)])
          ((overStream {}).run k [.perform (.serve more)]) := by
  intro answer stray reading input more
  obtain ⟨faults, unnamed, unknown, calls, insertions⟩ := unchanged_by_rejected
  obtain ⟨e, faulty⟩ : ∃ e, (Arrival.frame []).fault? = some e := ⟨_, rfl⟩
  obtain ⟨outcome, nameless⟩ : ∃ outcome, Rpc.Message.ofBytes answer = .ok (.response none outcome) := ⟨_, rfl⟩
  obtain ⟨other, named⟩ : ∃ outcome, Rpc.Message.ofBytes stray = .ok (.response (some (.number 1)) outcome) :=
    ⟨_, rfl⟩
  have reads (body : List UInt8) (small : body.length ≤ Frame.bodyLimit) :
      (reading body).arrival? = some (.frame body) := by
    have arrived := (Frame.next_encode (Nat.lt_of_le_of_lt small (by decide)) [] true).1
    rw [List.append_nil, landing, if_neg (Nat.not_lt.mpr small)] at arrived
    simp only [reading, Moment.arrival?, List.isEmpty_nil, arrived]
  refine ⟨⟨e, faults _ _ e (reads [] (by decide)) faulty⟩, ?_, ?_, ?_, ?_⟩
  · exact unnamed _ answer outcome (Moment.routes?_eq_some.mpr (reads answer (by decide))) nameless
  · refine unknown _ stray _ other (Moment.routes?_eq_some.mpr (reads stray (by decide))) named fun c same => ?_
    cases same
    rfl
  · have smooth : Smooth [.bytes [10]] := by simp [Smooth]
    have blank : Frame.Yields [10] [.rejected .missingContentLength, .ended] :=
      .more (Frame.holds_iff.mpr ⟨rfl, rfl⟩) rfl (.last (.ended rfl) rfl)
    obtain ⟨expected, yields, reported⟩ := calls _ smooth
    obtain rfl := blank.unique yields
    exact reported (overStream {}) [] [] _ _ .start (by simp [Unreturned])
  · have fits : ∀ body ∈ [answer], body.length < 2 ^ 64 := by simp [answer]
    have whole : Frame.Whole (encode []) (.frame []) := ⟨rfl, rfl⟩
    exact (insertions input more (stuffed_behind fits whole faulty _ []) (overStream {}) []).1

end Session
end LanguageClient
