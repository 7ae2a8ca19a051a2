import LanguageClient.Proofs.Session.Account
import LanguageClient.Proofs.Session.Intake

/-! Every message that is taken in gets one answer.

What was settled and what is still owed make up what was taken in, at every moment. Once
nothing is owed any longer, every request has had one response with its id, and every
notification one acknowledgement. If the sink takes everything, every request off the
stream has had one frame.
-/

set_option autoImplicit false
namespace LanguageClient.Session

open Rpc (RequestId Response)

/-- How a message was answered: the id of each response, nothing for an acknowledgement. -/
def answersTo (number : Nat) (events : List Event) : List (Option RequestId) :=
  under number (events.filterMap Book.calls.settles?)

/-- The octets of the responses written on account of a message. -/
def framesFor (number : Nat) (events : List Event) : List (List UInt8) :=
  events.filterMap fun
    | @Event.written (.response other _) bytes => if other = number then some bytes else none
    | _ => none

def outstanding (s : Session) (tasks : List Task) : List Duty :=
  duties s.held ++ tasks.filterMap Task.duty?

/-- Every message handed over, or read while attached, has one answer. -/
structure Answered (ms : List Moment) (t : Session) (rest : List Task) : Prop where
  /-- Messages are numbered in order, so a number stands for one message. -/
  numbers : (ms.flatMap Moment.admits).map Duty.number = List.range t.received
  once : ∀ number, (answersTo number (seen ms)).length ≤ 1
  answered : ∀ d ∈ ms.flatMap Moment.admits, d.called = true →
    answersTo d.number (seen ms) ++
      under d.number ((outstanding t rest).filterMap Book.calls.owes?) = [d.id]
  settled : outstanding t rest = [] → ∀ d ∈ ms.flatMap Moment.admits, d.called = true →
    answersTo d.number (seen ms) = [d.id]

/-- The text of an answer to a request, with its id and with either a result or an error. -/
def AnswerText (id : RequestId) (text : List Char) : Prop :=
  ∃ name value, (name = "result" ∨ name = "error") ∧ text = Json.writeRecord
    [("jsonrpc", Json.writeString "2.0"), ("id", id.toValue.write), (name, value)]

theorem answerText_write (r : Response) : AnswerText r.id r.write := by
  obtain ⟨id, outcome⟩ := r
  cases outcome with
  | ok v => exact ⟨"result", v.write, .inl rfl, rfl⟩
  | error e => exact ⟨"error", e.write, .inr rfl, rfl⟩

/-- Every request read off the stream has one frame. -/
structure FramesAnswered (ms : List Moment) (t : Session) (rest : List Task) : Prop where
  once : ∀ number, (framesFor number (seen ms)).length ≤ 1
  settled : outstanding t rest = [] → ∀ before m after body id method, ms = before ++ m :: after →
    m.routes? = some body → Rpc.Message.ofBytes body = .ok (.request id method) →
      ∃ r : Response, r.id = id ∧ AnswerText id r.write ∧
        framesFor m.session.received (seen ms) = [Frame.encode (Json.octets r.write)]

/-- When a book is kept: for frames the sink has to take everything. -/
def Kept (first : Session) (ms : List Moment) : Book → Prop
  | .calls => True
  | .frames => first.Clear ∧ ∀ m ∈ ms, m.session.Generous

structure Accounts (first : Session) (ms : List Moment) (t : Session) (rest : List Task) : Prop where
  balance : ∀ book, Kept first ms book →
    ((seen ms).filterMap book.settles? ++ (outstanding t rest).filterMap book.owes?).Perm
      ((ms.flatMap Moment.admits).filterMap book.owes?)
  framed : Kept first ms .frames → (∀ event ∈ seen ms, event.Framed) ∧ t.Clear
  numbers : (ms.flatMap Moment.admits).map Duty.number = List.range t.received
  slots : t.Slotted

structure Entered (m : Moment) : Prop where
  balance : ∀ book, m.session.Fit book →
    (m.turn.events.filterMap book.settles? ++
      (outstanding m.turn.session m.turn.tasks).filterMap book.owes?).Perm
      ((duties m.session.held ++ (m.task.duty?.toList ++ m.admits)).filterMap book.owes?)
  framed : m.session.Fit .frames → (∀ event ∈ m.turn.events, event.Framed) ∧ m.turn.session.Clear
  slots : m.turn.session.Slotted
  received : m.turn.session.received = m.session.received + m.admits.length

theorem entered_setSink {s : Session} (slotted : s.Slotted) (reactions : List Frame.Reaction)
    (failing : Option StreamError) (later : List Task) :
    Entered ⟨s, .perform (.setSink reactions failing), later⟩ := by
  have same : (s.setSink reactions failing).held = s.held ∧
      (s.setSink reactions failing).nextSlot = s.nextSlot ∧
      (s.setSink reactions failing).received = s.received := by
    unfold setSink
    split <;> exact ⟨rfl, rfl, rfl⟩
  obtain ⟨held, slot, received⟩ := same
  constructor
  · intro book _
    simp only [Moment.turn, step, perform, outstanding, held]
    exact .refl _
  · rintro ⟨-, c, carrier, clear⟩
    refine ⟨by simp [Moment.turn, step, perform], ?_⟩
    have carrier : s.transport = .connection c := carrier
    simp only [Moment.turn, step, perform, setSink, carrier]
    exact ⟨_, rfl, clear⟩
  · exact ⟨held ▸ slotted.distinct, fun entry member => slot ▸ slotted.below entry (held ▸ member)⟩
  · exact received

theorem entered {m : Moment} (slotted : m.session.Slotted) : Entered m := by
  by_cases steady : ∀ op, m.task = .perform op → op.resinks = false
  · have settled := settles_step slotted steady
    exact {
      balance := settled.balance
      framed := fun fit => ⟨(settled.framed fit).1, (settled.framed fit).2.2⟩
      slots := settled.slots slotted
      received := settled.received }
  · obtain ⟨s, task, later⟩ := m
    simp only [not_forall] at steady
    obtain ⟨op, rfl, resinks⟩ := steady
    cases op with
    | setSink reactions failing => exact entered_setSink slotted reactions failing later
    | _ => exact absurd rfl resinks

theorem number_admits (m : Moment) :
    m.admits.map Duty.number = List.range' m.session.received m.admits.length := by
  have read : ∀ body, (m.session.intake body).map Duty.number =
      List.range' m.session.received (m.session.intake body).length := by
    intro body
    unfold intake
    split
    · rfl
    · split <;> rfl
    · rfl
  unfold Moment.admits
  split
  · rfl
  · rfl
  · cases m.arrival? with
    | none => rfl
    | some arrival =>
      cases arrival with
      | frame body => exact read body
      | _ => rfl

namespace Accounts

variable {first s : Session} {ms : List Moment} {task : Task} {rest tasks : List Task}

theorem fit (h : Accounts first ms s tasks) {m : Moment} (same : m.session = s) {book : Book}
    (kept : Kept first (ms ++ [m]) book) : Kept first ms book ∧ m.session.Fit book := by
  cases book with
  | calls => exact ⟨trivial, trivial⟩
  | frames =>
    obtain ⟨clear, generous⟩ := kept
    have before : Kept first ms .frames :=
      ⟨clear, fun m member => generous m (List.mem_append_left _ member)⟩
    refine ⟨before, generous m (by simp), ?_⟩
    rw [same]
    exact (h.framed before).2

theorem concat (h : Accounts first ms s (task :: rest)) (k : Entered ⟨s, task, rest⟩) :
    Accounts first (ms ++ [⟨s, task, rest⟩]) (s.step task).session ((s.step task).tasks ++ rest) where
  balance := by
    intro book kept
    obtain ⟨before, fit⟩ := h.fit rfl kept
    have first : (task :: rest).filterMap Task.duty? = task.duty?.toList ++ rest.filterMap Task.duty? := by
      cases duty : task.duty? <;> simp [duty]
    have earlier := h.balance book before
    have now := k.balance book fit
    -- Entries may change places, so both sides are compared by counting.
    classical
    rw [List.perm_iff_count] at earlier now ⊢
    intro entry
    have earlier := earlier entry
    have now := now entry
    simp only [outstanding, first, seen_append, seen_singleton, Moment.turn, List.filterMap_append,
      List.flatMap_append, List.flatMap_singleton, List.count_append] at earlier now ⊢
    omega
  framed := by
    intro kept
    obtain ⟨before, fit⟩ := h.fit rfl kept
    obtain ⟨earlier, -⟩ := h.framed before
    obtain ⟨now, clear⟩ := k.framed fit
    refine ⟨fun event member => ?_, clear⟩
    rw [seen_append, seen_singleton] at member
    rcases List.mem_append.mp member with left | right
    · exact earlier event left
    · exact now event right
  numbers := by
    have received : (s.step task).session.received = _ := k.received
    rw [List.flatMap_append, List.map_append, h.numbers, List.flatMap_singleton, number_admits, received]
    simp [List.range_eq_range', ← List.range'_append]
  slots := k.slots

theorem join (h : Accounts first ms s rest) (tasks : List Task) {held : List (Nat × Held)}
    (passed : (duties held ++ tasks.filterMap Task.duty?).Perm (duties s.held))
    (slots : Slotted { s with held }) : Accounts first ms { s with held } (tasks ++ rest) where
  balance := by
    intro book kept
    have passed := passed.filterMap book.owes?
    have before := h.balance book kept
    classical
    rw [List.perm_iff_count] at before passed ⊢
    intro entry
    have before := before entry
    have passed := passed entry
    simp only [outstanding, List.filterMap_append, List.count_append] at before passed ⊢
    omega
  framed := h.framed
  numbers := h.numbers
  slots := slots

end Accounts

theorem accounts_of_course {first t : Session} {ms : List Moment} {rest : List Task}
    (bare : first.held = []) (new : first.received = 0) (course : Course first [] ms t rest) :
    Accounts first ms t rest := by
  induction course with
  | start =>
    constructor
    · simp [outstanding, duties, bare]
    · exact fun kept => ⟨by simp, kept.1⟩
    · simp [new]
    · exact ⟨by simp [bare], by simp [bare]⟩
  | step _ ih => exact ih.concat (entered ih.slots)
  | @call _ s _ op _ _ ih =>
    have idle : [Task.perform op].filterMap Task.duty? = [] := rfl
    have passed : (duties s.held ++ [Task.perform op].filterMap Task.duty?).Perm (duties s.held) := by
      rw [idle, List.append_nil]
    exact ih.join [.perform op] passed ih.slots
  | letGo _ _ ih =>
    refine ih.join _ ?_ ⟨by simp, by simp⟩
    simp [duties, List.filterMap_map, Function.comp_def, Task.duty?]

section Course

variable {first t : Session} {ms : List Moment} {rest : List Task}

theorem distinct_owes (h : Accounts first ms t rest) (book : Book) :
    (((ms.flatMap Moment.admits).filterMap book.owes?).map Prod.fst).Nodup := by
  -- A message has one entry in a book at most, under its own number.
  have listed (taken : List Duty) :
      ((taken.filterMap book.owes?).map Prod.fst).Sublist (taken.map Duty.number) := by
    induction taken with
    | nil => exact .slnil
    | cons d taken ih =>
      cases owed : book.owes? d with
      | none =>
        rw [List.filterMap_cons_none owed]
        exact ih.cons _
      | some entry =>
        have same : entry.1 = d.number := by
          cases book <;> simp only [Book.owes?] at owed <;> split at owed <;> cases owed <;> rfl
        rw [List.filterMap_cons_some owed, List.map_cons, same]
        exact ih.cons_cons _
  have numbers : ((ms.flatMap Moment.admits).map Duty.number).Nodup := by
    rw [h.numbers]
    exact List.nodup_range
  exact numbers.sublist (listed _)

theorem entries_length (h : Accounts first ms t rest) {book : Book} (kept : Kept first ms book)
    (number : Nat) : (under number ((seen ms).filterMap book.settles?)).length ≤ 1 := by
  have one := under_length (distinct_owes h book) number
  have same := ((h.balance book kept).filterMap
    fun entry => if entry.1 = number then some entry.2 else none).length_eq
  rw [List.filterMap_append, List.length_append] at same
  simp only [under] at one ⊢
  omega

theorem entries_of_owes (h : Accounts first ms t rest) {book : Book} (kept : Kept first ms book)
    {d : Duty} (member : d ∈ ms.flatMap Moment.admits) (owed : book.owes? d = some (d.number, d.id)) :
    under d.number ((seen ms).filterMap book.settles?) ++
      under d.number ((outstanding t rest).filterMap book.owes?) = [d.id] := by
  have single := under_of_mem (distinct_owes h book) (List.mem_filterMap.mpr ⟨d, member, owed⟩)
  have same := (h.balance book kept).filterMap
    fun entry => if entry.1 = d.number then some entry.2 else none
  rw [← under_append, ← List.perm_singleton, ← single]
  exact same

theorem unanswered (h : Accounts first ms t rest) : answersTo t.received (seen ms) = [] := by
  refine under_absent fun listed => ?_
  obtain ⟨entry, settled, same⟩ := List.mem_map.mp listed
  have entered := (h.balance .calls trivial).mem_iff.mp (List.mem_append_left _ settled)
  obtain ⟨d, member, owed⟩ := List.mem_filterMap.mp entered
  have numbered : entry.1 = d.number := by
    simp only [Book.owes?] at owed
    split at owed <;> cases owed
    rfl
  have below : d.number ∈ List.range t.received := h.numbers ▸ List.mem_map_of_mem member
  rw [List.mem_range, ← numbered, same] at below
  exact Nat.lt_irrefl _ below

theorem answered (h : Accounts first ms t rest) : Answered ms t rest := by
  have kept : Kept first ms .calls := trivial
  have each : ∀ d ∈ ms.flatMap Moment.admits, d.called = true →
      answersTo d.number (seen ms) ++
        under d.number ((outstanding t rest).filterMap Book.calls.owes?) = [d.id] :=
    fun d member called => entries_of_owes h kept member (by simp [Book.owes?, called])
  constructor
  · exact h.numbers
  · exact entries_length h kept
  · exact each
  · intro nothing d member called
    simpa [nothing, under] using each d member called

theorem frames_entered {events : List Event} (framed : ∀ event ∈ events, event.Framed)
    (number : Nat) : ∃ rs : List Response,
      framesFor number events = rs.map (fun r => Frame.encode (Json.octets r.write)) ∧
        under number (events.filterMap Book.frames.settles?) = rs.map (fun r => some r.id) := by
  induction events with
  | nil => exact ⟨[], rfl, rfl⟩
  | cons event events ih =>
    obtain ⟨rs, written, entered⟩ := ih fun event member => framed event (List.mem_cons_of_mem _ member)
    have now := framed event List.mem_cons_self
    cases event with
    | @written subject bytes =>
      cases subject with
      | request _ _ => exact ⟨rs, written, entered⟩
      | notification _ => exact ⟨rs, written, entered⟩
      | response other id =>
        obtain ⟨r, rfl, rfl⟩ := now
        by_cases same : other = number
        · refine ⟨r :: rs, ?_, ?_⟩
          · rw [List.map_cons, ← written]
            simp [framesFor, same]
          · rw [List.map_cons, ← entered]
            simp [under, Book.settles?, same]
        · refine ⟨rs, ?_, ?_⟩
          · rw [← written]
            simp [framesFor, same]
          · rw [← entered]
            simp [under, Book.settles?, same]
    | _ => exact ⟨rs, written, entered⟩

theorem admits_of_request {m : Moment} {body : List UInt8} {id : RequestId} {method : String}
    (routed : m.routes? = some body) (read : Rpc.Message.ofBytes body = .ok (.request id method)) :
    ⟨m.session.received, some id, m.session.attached, true⟩ ∈ m.admits := by
  have arrived := Moment.routes?_eq_some.mp routed
  unfold Moment.admits
  split
  · rename_i asked
    simp [Moment.arrival?, asked] at arrived
  · rename_i asked
    simp [Moment.arrival?, asked] at arrived
  · rw [arrived, Option.elim_some, taken, intake, read]
    exact List.mem_singleton_self _

theorem framesAnswered (h : Accounts first ms t rest) (kept : Kept first ms .frames) :
    FramesAnswered ms t rest := by
  obtain ⟨framed, -⟩ := h.framed kept
  constructor
  · intro number
    obtain ⟨rs, written, entered⟩ := frames_entered framed number
    have once := entries_length h kept number
    rw [entered, List.length_map] at once
    rwa [written, List.length_map]
  · intro nothing before m after body id method split routed read
    have member : ⟨m.session.received, some id, m.session.attached, true⟩ ∈ ms.flatMap Moment.admits := by
      rw [split, List.mem_flatMap]
      exact ⟨m, by simp, admits_of_request routed read⟩
    have entry := entries_of_owes h kept member (by simp [Book.owes?])
    obtain ⟨rs, written, entered⟩ := frames_entered framed m.session.received
    rw [nothing, entered, List.filterMap_nil] at entry
    rw [show under m.session.received [] = ([] : List (Option RequestId)) from rfl, List.append_nil] at entry
    obtain ⟨r, rfl, same⟩ := List.map_eq_singleton_iff.mp entry
    obtain rfl := Option.some.inj same
    exact ⟨r, rfl, answerText_write r, written⟩

/-- Every inbound message is answered once, and with its own id, whatever handlers do and in
whatever order; over a stream that takes everything, every request has its frame. -/
theorem answered_of_course {config : Config} {transport : Transport}
    (course : Course { config, transport } [] ms t rest) :
    Answered ms t rest ∧ (transport = .connection {} → (∀ m ∈ ms, m.session.Generous) →
      FramesAnswered ms t rest) := by
  have accounts := accounts_of_course rfl rfl course
  refine ⟨answered accounts, ?_⟩
  rintro rfl generous
  exact framesAnswered accounts ⟨⟨_, rfl, rfl⟩, generous⟩

/-- As long as no other sink is chosen, the first one takes everything. -/
theorem generous_of_course {tasks : List Task} (course : Course first tasks ms t rest) (slotted : first.Slotted)
    (fit : first.Fit .frames) (steady : ∀ m ∈ ms, m.task.resinks = false) :
    (∀ m ∈ ms, m.session.Generous) ∧ t.Slotted ∧ t.Fit .frames := by
  induction course with
  | start => exact ⟨by simp, slotted, fit⟩
  | @step ms s task rest _ ih =>
    obtain ⟨generous, slotted, fit⟩ := ih fun m member => steady m (List.mem_append_left _ member)
    have still : task.resinks = false := steady ⟨s, task, rest⟩ (by simp)
    have settled := settles_step (m := ⟨s, task, rest⟩) slotted fun op performs => by
      rw [show task = .perform op from performs] at still
      exact still
    refine ⟨fun m member => ?_, settled.slots slotted, (settled.framed fit).2⟩
    rcases List.mem_append.mp member with before | last
    · exact generous m before
    · rw [List.mem_singleton.mp last]
      exact fit.1
  | call _ _ _ ih => exact ih steady
  | letGo _ _ ih =>
    obtain ⟨generous, -, fit⟩ := ih steady
    exact ⟨generous, ⟨by simp, by simp⟩, fit⟩

def inquiry : List UInt8 := Json.octets (Rpc.writeRequest (.number 7) "workspace/workspaceFolders" none)

def inquiring : Op := .serve [.bytes (Frame.encode inquiry)]

def holding : Session :=
  { overStream {} with attached := true, requestHandler := some ⟨none, false, [], .hold⟩ }

/-- A request off the stream whose responder is held until the stream is over, and completed then. -/
theorem answered_after_holding : ∃ early late t, Course (overStream {}) [] (early ++ late) t [] ∧
    Answered (early ++ late) t [] ∧ FramesAnswered (early ++ late) t [] ∧
      early.filterMap Moment.routes? = [inquiry] ∧ answersTo 0 (seen early) = [] ∧
        answersTo 0 (seen (early ++ late)) = [some (.number 7)] ∧
          framesFor 0 (seen (early ++ late)) =
            [Frame.encode (Json.octets (Response.success (.number 7) .null).write)] := by
  have begun : Course (overStream {}) [] _ holding [] :=
    (Course.start.execute 1 .attach).execute 1 (.setRequestHandler ⟨none, false, [], .hold⟩)
  have served := begun.execute 8 inquiring
  have idle : (holding.execute 8 inquiring).tasks = [] := List.isEmpty_iff.mp (by decide +kernel)
  rw [idle] at served
  have course := served.execute 1 (.complete 0 (.respond (.ok .null)) .drop .hold)
  have done : ((holding.execute 8 inquiring).session.execute 1
      (.complete 0 (.respond (.ok .null)) .drop .hold)).tasks = [] := List.isEmpty_iff.mp (by decide +kernel)
  rw [done] at course
  obtain ⟨answered, frames⟩ := answered_of_course course
  have slotted : (overStream {}).Slotted := ⟨by simp [overStream], by simp [overStream]⟩
  have fit : (overStream {}).Fit .frames := ⟨⟨_, rfl, rfl, rfl⟩, _, rfl, rfl⟩
  have generous := (generous_of_course course slotted fit (by decide +kernel)).1
  refine ⟨_, _, _, course, answered, frames rfl generous, ?_, ?_, ?_, ?_⟩
  · decide +kernel
  · decide +kernel
  · decide +kernel
  · decide +kernel

end Course

end LanguageClient.Session
