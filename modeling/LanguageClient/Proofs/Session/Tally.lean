import LanguageClient.Proofs.Session.Outbound

/-! The invariant of the sends of a session over a byte stream.

The ledger of a course accounts for everything: the requests without a verdict are the
pending table, in order; each verdict was given to its completion or is about to be; and
each send has a number of its own, and no two requests wait under one id.
-/

set_option autoImplicit false
namespace LanguageClient

open Json (Value)
open Rpc (RequestId Outcome)

def Task.due? (task : Task) : Option (Nat × Completed) :=
  task.finishing?.map fun (c, outcome) => (c.number, c.report outcome)

namespace Session

/-- All the same, no task but the first is a call of a completion outside a reading. -/
def Enclosed : List Task → Prop
  | [] => True
  | task :: rest => (task.finishing? ≠ none → rest.any Task.serves = true) ∧ Enclosed rest

theorem enclosed_append {tasks rest : List Task} (h : Enclosed tasks) (k : Enclosed rest) :
    Enclosed (tasks ++ rest) := by
  induction tasks with
  | nil => exact k
  | cons task tasks ih =>
    refine ⟨fun finishing => ?_, ih h.2⟩
    simp [h.1 finishing]

theorem enclosed_of_idle {tasks : List Task} (h : ∀ task ∈ tasks, task.idle = true) :
    Enclosed tasks := by
  induction tasks with
  | nil => trivial
  | cons task tasks ih =>
    refine ⟨?_, ih fun task member => h task (List.mem_cons_of_mem _ member)⟩
    have idle := h task List.mem_cons_self
    cases task <;> simp_all [Task.idle, Task.finishing?]

theorem enclosed_tail {tasks : List Task} (h : Enclosed tasks) : Enclosed tasks.tail := by
  cases tasks with
  | nil => trivial
  | cons task rest => exact h.2

theorem enclosed_append_tail {tasks rest : List Task} (h : Enclosed tasks.tail) (k : Enclosed rest) :
    Enclosed (tasks ++ rest).tail := by
  cases tasks with
  | nil => exact enclosed_tail k
  | cons task tasks => exact enclosed_append h k

theorem enclosed_of_open {tasks : List Task} (free : Open tasks) (h : Enclosed tasks.tail) :
    Enclosed tasks := by
  cases tasks with
  | nil => trivial
  | cons task rest =>
    have free : task.finishing? = none := free task rfl
    exact ⟨fun finishing => absurd free finishing, h⟩

theorem due_eq_nil {tasks : List Task} (h : Enclosed tasks) (outside : tasks.any Task.serves = false) :
    tasks.filterMap Task.due? = [] := by
  induction tasks with
  | nil => rfl
  | cons task rest ih =>
    simp only [List.any_cons, Bool.or_eq_false_iff] at outside
    cases finishing : task.finishing? with
    | none => simpa [List.filterMap_cons, Task.due?, finishing] using ih h.2 outside.2
    | some call =>
      have enclosing := h.1 (by simp [finishing])
      rw [outside.2] at enclosing
      cases enclosing

theorem due_of_idle {tasks : List Task} (h : ∀ task ∈ tasks, task.idle = true) :
    tasks.filterMap Task.due? = [] := by
  refine List.filterMap_eq_nil_iff.mpr fun task member => ?_
  have idle := h task member
  cases task <;> simp_all [Task.idle, Task.due?, Task.finishing?]

/-- The id of a request by its place among the requests: the counter wraps around. -/
def placed (n : Nat) : RequestId := .number (Int64.ofNat n).toInt

theorem placed_eq {i j : Nat} : placed i = placed j ↔ i % 2 ^ 64 = j % 2 ^ 64 := by
  rw [placed, placed, RequestId.number.injEq, Int64.toInt_inj, ← Int64.toBitVec_inj, Int64.toBitVec_ofNat',
    Int64.toBitVec_ofNat', ← BitVec.toNat_inj, BitVec.toNat_ofNat, BitVec.toNat_ofNat]

theorem placed_of_lt {n : Nat} (few : n < 2 ^ 63) : placed n = .number n := by
  rw [placed, Int64.toInt_ofNat_of_lt few]

/-- The sends of a ledger fit a session with its tasks and what could be seen. -/
structure Tally (l : Line) (sent : List Sent) (s : Session) (tasks : List Task)
    (events : List Event) : Prop where
  line : s.line = some l
  waiting : sent.filterMap Sent.waiting? = l.pending
  settled : (events.filterMap Event.completion? ++ tasks.filterMap Task.due?).Perm
    (sent.filterMap Sent.settled?)
  numbers : sent.map Sent.number = List.range' 1 l.sends
  ids : sent.filterMap Sent.id? = (List.range' 1 (sent.filterMap Sent.id?).length).map placed
  next : l.nextId = Int64.ofNat ((sent.filterMap Sent.id?).length + 1)
  distinct : (l.pending.map Prod.fst).Nodup
  closed : l.closed = true → l.pending = []
  stopped : ∀ outcome, Task.stopped outcome ∈ tasks → l.closed = true
  held : ∀ entry ∈ s.held, ∀ c, entry.2 ≠ .completion c
  enclosed : Enclosed tasks.tail

theorem tally_overStream (config : Config) : Tally ⟨[], false, 1, 0⟩ [] (overStream config) [] [] where
  line := rfl
  waiting := rfl
  settled := .refl _
  numbers := rfl
  ids := rfl
  next := rfl
  distinct := .nil
  closed := fun _ => rfl
  stopped := by simp
  held := by simp [overStream]
  enclosed := trivial

/-! What one step sends, decides, calls and leaves to be called adds up. -/

/-- The sends of a step get the numbers and ids that come next. -/
structure Numbered (m : Moment) (l k : Line) : Prop where
  numbers : List.range' 1 k.sends = List.range' 1 l.sends ++ m.sent.map Sent.number
  ids : m.sent.filterMap Sent.id? = [] ∧ k.nextId = l.nextId ∨
    m.sent.filterMap Sent.id? = [.number l.nextId.toInt] ∧ k.nextId = l.nextId + 1

/-- The balance of a step that takes the line `l` to the line `k`. -/
structure Balanced (m : Moment) (l k : Line) : Prop where
  line : m.turn.session.line = some k
  waiting : k.pending = (l.pending.filter fun entry => (m.decides? entry.1).isNone) ++
    m.sent.filterMap Sent.waiting?
  settled : (m.turn.events.filterMap Event.completion? ++ m.turn.tasks.filterMap Task.due?).Perm
    (m.task.due?.toList ++ (decided m l.pending ++ m.sent.filterMap Sent.settled?))
  numbered : Numbered m l k
  closed : k.closed = true → k.pending = []
  opened : l.closed = true → k.closed = true
  stopped : ∀ outcome, Task.stopped outcome ∈ m.turn.tasks → k.closed = true
  held : ∀ entry ∈ m.turn.session.held, ∀ c, entry.2 ≠ .completion c
  enclosed : Enclosed m.turn.tasks.tail

section Steps

variable {m : Moment} {l : Line} {c : Connection}

theorem numbered_unsent (unsent : m.sent = []) {pending closed} :
    Numbered m l ⟨pending, closed, l.nextId, l.sends⟩ := by
  refine ⟨?_, .inl ⟨?_, rfl⟩⟩ <;> simp [unsent]

theorem numbered_request {a : Asking} {verdict : Option Fate} (sent : m.sent = [.request a verdict])
    (number : a.completion.number = l.sends + 1) (id : a.id = .number l.nextId.toInt) {pending closed} :
    Numbered m l ⟨pending, closed, l.nextId + 1, l.sends + 1⟩ := by
  refine ⟨?_, .inr ⟨?_, rfl⟩⟩
  · rw [sent, List.range'_concat, List.map_singleton, Sent.number, number, Nat.one_mul, Nat.add_comm]
  · rw [sent, ← id]
    rfl

theorem numbered_notification {number : Nat} {outcome : Completed}
    (sent : m.sent = [.notification number outcome]) (next : number = l.sends + 1) {pending closed} :
    Numbered m l ⟨pending, closed, l.nextId, l.sends + 1⟩ := by
  refine ⟨?_, .inl ⟨?_, rfl⟩⟩
  · rw [sent, List.range'_concat, List.map_singleton, Sent.number, next, Nat.one_mul, Nat.add_comm]
  · rw [sent]
    rfl

theorem undecided {table : List (RequestId × Completion)}
    (nothing : ∀ entry ∈ table, m.decides? entry.1 = none) :
    (table.filter fun entry => (m.decides? entry.1).isNone) = table ∧ decided m table = [] := by
  constructor
  · exact List.filter_eq_self.mpr fun entry member => by simp [nothing entry member]
  · exact List.filterMap_eq_nil_iff.mpr fun entry member => by simp [nothing entry member]

theorem balanced_idle (idle : Idle m.session m.turn) (line : m.session.line = some l)
    (closed : l.closed = true → l.pending = [])
    (bare : ∀ entry ∈ m.session.held, ∀ c, entry.2 ≠ .completion c) (owing : m.task.due? = none)
    (unsent : m.sent = []) (nothing : ∀ entry ∈ l.pending, m.decides? entry.1 = none) :
    Balanced m l l where
  line := idle.line.trans line
  waiting := by simp [unsent, (undecided nothing).1]
  settled := by
    simp [idle.silent, due_of_idle idle.tasks, owing, unsent, (undecided nothing).2]
  numbered := numbered_unsent unsent
  closed := closed
  opened := id
  stopped := fun outcome member => by simpa [Task.idle] using idle.tasks _ member
  held := fun entry member c same => bare entry (idle.held entry member c same) c same
  enclosed := enclosed_tail (enclosed_of_idle idle.tasks)

theorem due_performs (ops : List Op) : (ops.map Task.perform).filterMap Task.due? = [] := by
  refine due_of_idle fun task member => ?_
  obtain ⟨op, -, rfl⟩ := List.mem_map.mp member
  rfl

theorem enclosed_performs (ops : List Op) : Enclosed (ops.map Task.perform) := by
  refine enclosed_of_idle fun task member => ?_
  obtain ⟨op, -, rfl⟩ := List.mem_map.mp member
  rfl

theorem decided_of_hears {id : RequestId} {outcome : Outcome}
    (heard : m.hears? = some (id, outcome)) {table : List (RequestId × Completion)}
    (distinct : (table.map Prod.fst).Nodup) :
    decided m table = ((table.lookup id).map fun completion =>
      (completion.number, completion.report (.ok outcome))).toList := by
  have verdict := Moment.decides?_of_hears heard
  induction table with
  | nil => rfl
  | cons first rest ih =>
    obtain ⟨key, waiting⟩ := first
    obtain ⟨apart, distinct⟩ := List.nodup_cons.mp distinct
    have ih := ih distinct
    by_cases same : id = key
    · have missing : rest.lookup id = none := by
        refine List.lookup_eq_none_iff.mpr fun entry member => ?_
        have listed : entry.1 ∈ rest.map Prod.fst := List.mem_map_of_mem member
        have other : id ≠ entry.1 := fun found => apart (same ▸ found ▸ listed)
        simpa using other
      rw [missing] at ih
      simp only [decided, List.filterMap_cons, verdict, if_pos same] at ih ⊢
      rw [ih]
      simp [same, Completion.call?]
    · have other : (id == key) = false := by simpa using same
      simpa only [decided, List.filterMap_cons, verdict, if_neg same, List.lookup_cons, other,
        Option.map_none, Option.bind_none] using ih

theorem kept_of_hears {id : RequestId} {outcome : Outcome} (heard : m.hears? = some (id, outcome))
    (table : List (RequestId × Completion)) :
    (table.filter fun entry => (m.decides? entry.1).isNone) =
      table.filter fun entry => entry.1 != id := by
  refine List.filter_congr fun entry _ => ?_
  rw [Moment.decides?_of_hears heard]
  by_cases same : id = entry.1
  · simp [same]
  · simp [same, Ne.symm same]

theorem kept_of_asks {a : Asking} (asked : m.asks? = some a) (table : List (RequestId × Completion)) :
    (table.filter fun entry => (m.decides? entry.1).isNone) = table.filter fun entry => entry.1 != a.id := by
  refine List.filter_congr fun entry _ => ?_
  rw [Moment.decides?_of_asks asked]
  by_cases same : a.id = entry.1
  · simp [same]
  · simp [same, Ne.symm same]

theorem decided_of_asks {a : Asking} (asked : m.asks? = some a) (table : List (RequestId × Completion)) :
    decided m table = [] := by
  refine List.filterMap_eq_nil_iff.mpr fun entry _ => ?_
  rw [Moment.decides?_of_asks asked]
  split <;> rfl

theorem distinct_heed (m : Moment) {table : List (RequestId × Completion)} (distinct : (table.map Prod.fst).Nodup) :
    (((table.filter fun entry => (m.decides? entry.1).isNone) ++ m.sent.filterMap Sent.waiting?).map
      Prod.fst).Nodup := by
  have kept := distinct.sublist ((List.filter_sublist (p := fun entry => (m.decides? entry.1).isNone)).map Prod.fst)
  cases asked : m.asks? with
  | none =>
    have still : m.sent.filterMap Sent.waiting? = [] := by
      unfold Moment.sent
      split <;> simp_all [Sent.waiting?]
    rwa [still, List.append_nil]
  | some a =>
    rw [kept_of_asks asked] at kept ⊢
    rw [Moment.sent_of_asks asked]
    cases a.refusal with
    | some e => simpa [List.filterMap_cons, Sent.waiting?] using kept
    | none => simpa [List.filterMap_cons, Sent.waiting?, List.nodup_append] using kept

/-- A step that moves the line balances when what it decides, sends and calls adds up. -/
theorem Moves.balanced {k : Line} {calls : List (Nat × Completed)} {tasks : List Task}
    (moved : Moves m.session m.turn k calls tasks)
    (waiting : k.pending = (l.pending.filter fun entry => (m.decides? entry.1).isNone) ++
      m.sent.filterMap Sent.waiting?)
    (settled : (calls ++ tasks.filterMap Task.due?).Perm
      (m.task.due?.toList ++ (decided m l.pending ++ m.sent.filterMap Sent.settled?)))
    (numbered : Numbered m l k) (closed : k.closed = true → k.pending = [])
    (opened : l.closed = true → k.closed = true) (stopped : ∀ outcome, .stopped outcome ∈ tasks → k.closed = true)
    (bare : ∀ entry ∈ m.session.held, ∀ c, entry.2 ≠ .completion c)
    (enclosed : Enclosed tasks.tail) : Balanced m l k where
  line := moved.line
  waiting := waiting
  settled := by rwa [moved.calls, moved.tasks]
  numbered := numbered
  closed := closed
  opened := opened
  stopped := by rwa [moved.tasks]
  held := by rwa [moved.held]
  enclosed := by rwa [moved.tasks]

variable (carrier : m.session.transport = .connection c) (closed : c.closed = true → c.pending = [])
  (bare : ∀ entry ∈ m.session.held, ∀ c, entry.2 ≠ .completion c)

include carrier closed bare

theorem balanced_finish {completion : Completion} {outcome : Except TransportError Outcome}
    (called : m.task = .finish completion outcome) :
    Balanced m ⟨c.pending, c.closed, c.nextId, m.session.sends⟩
      ⟨c.pending, c.closed, c.nextId, m.session.sends⟩ := by
  have moved := moves_finish carrier completion outcome
  rw [show m.session.finish completion outcome = m.turn by rw [Moment.turn, called]; rfl] at moved
  have unasked : m.asks? = none := by simp [Moment.asks?, called]
  have unsent : m.sent = [] := Moment.sent_of_unasked unasked (by simp [Moment.notifies?, called])
  have silence : m.arrival? = none := by simp [Moment.arrival?, called]
  obtain ⟨kept, none⟩ := undecided fun entry (_ : entry ∈ c.pending) => Moment.decides?_of_silence silence unasked entry.1
  refine moved.balanced ?_ ?_ (numbered_unsent unsent) closed id (by simp) bare (enclosed_tail (enclosed_performs _))
  · rw [kept, unsent]
    exact (List.append_nil _).symm
  · -- The call was due, and it is made.
    rw [due_performs, none, unsent, called]
    exact .refl _

theorem balanced_notifies {number : Nat} {outcome : Completed}
    (notified : m.notifies? = some (number, outcome)) (silence : m.arrival? = none)
    (owing : m.task.due? = none) :
    Balanced m ⟨c.pending, c.closed, c.nextId, m.session.sends⟩
      ⟨c.pending, c.closed, c.nextId, m.session.sends + 1⟩ := by
  obtain ⟨next, after, moved⟩ := moves_of_notifies notified carrier
  obtain ⟨unasked, sent⟩ := Moment.sent_of_notifies notified
  obtain ⟨kept, none⟩ := undecided fun entry (_ : entry ∈ c.pending) => Moment.decides?_of_silence silence unasked entry.1
  refine moved.balanced ?_ ?_ (numbered_notification sent next) closed id (by simp) bare
    (enclosed_tail (enclosed_performs _))
  · rw [kept, sent]
    exact (List.append_nil _).symm
  · rw [due_performs, none, sent, owing]
    exact .refl _

theorem balanced_refused {a : Asking} {e : TransportError} (asked : m.asks? = some a)
    (refused : a.refusal = some e) (owing : m.task.due? = none) :
    Balanced m ⟨c.pending, c.closed, c.nextId, m.session.sends⟩
      ⟨c.pending.filter (fun entry => entry.1 != a.id), c.closed, c.nextId + 1, m.session.sends + 1⟩ := by
  have sends := sends_of_asks asked carrier closed
  have sent : m.sent = [.request a (some (.settled (.error e)))] := by
    rw [Moment.sent_of_asks asked, refused]
    rfl
  refine (sends.refused e refused).balanced ?_ ?_ (numbered_request sent sends.number sends.id) ?_ id (by simp) bare
    trivial
  · rw [kept_of_asks asked, sent]
    exact (List.append_nil _).symm
  · rw [decided_of_asks asked, sent, owing]
    exact .refl _
  · exact fun done => by simp [closed done]

theorem balanced_accepted {a : Asking} (asked : m.asks? = some a) (accepted : a.refusal = none)
    (owing : m.task.due? = none) :
    Balanced m ⟨c.pending, c.closed, c.nextId, m.session.sends⟩
      ⟨c.pending.filter (fun entry => entry.1 != a.id) ++ [(a.id, a.completion)], c.closed, c.nextId + 1,
        m.session.sends + 1⟩ := by
  have sends := sends_of_asks asked carrier closed
  obtain ⟨opened, moved⟩ := sends.accepted accepted
  have sent : m.sent = [.request a none] := by
    rw [Moment.sent_of_asks asked, accepted]
    rfl
  refine moved.balanced ?_ ?_ (numbered_request sent sends.number sends.id) ?_ id (by simp) bare trivial
  · rw [kept_of_asks asked, sent]
    rfl
  · rw [decided_of_asks asked, sent, owing]
    exact .refl _
  · simp [opened]

omit closed in
theorem balanced_ends (ended : m.ends = true) (unsent : m.sent = []) (owing : m.task.due? = none) :
    Balanced m ⟨c.pending, c.closed, c.nextId, m.session.sends⟩
      ⟨[], true, c.nextId, m.session.sends⟩ := by
  obtain ⟨outcome, moved⟩ := moves_of_ends ended carrier
  have verdict := Moment.decides?_of_ends ended
  refine moved.balanced ?_ ?_ (numbered_unsent unsent) (fun _ => rfl) (fun _ => rfl) (fun _ _ => rfl) bare ?_
  · simp [verdict, unsent]
  · have earned : (c.pending.map fun entry => Task.finish entry.2 (.error .closed)).filterMap
        Task.due? = decided m c.pending := by
      simp [decided, verdict, List.filterMap_map, Function.comp_def, Task.due?, Task.finishing?, Completion.call?]
    rw [List.filterMap_append, earned, owing, unsent]
    exact .refl _
  · -- The calls all stand in front of the end of the reading that makes them.
    refine enclosed_tail ?_
    induction c.pending with
    | nil => exact ⟨by simp [Task.finishing?], trivial⟩
    | cons entry rest ih => exact ⟨fun _ => by simp [Task.serves], ih⟩

theorem balanced_hears {id : RequestId} {outcome : Outcome} {completion : Completion}
    (heard : m.hears? = some (id, outcome)) (found : c.pending.lookup id = some completion)
    (distinct : (c.pending.map Prod.fst).Nodup) (unsent : m.sent = []) (owing : m.task.due? = none) :
    Balanced m ⟨c.pending, c.closed, c.nextId, m.session.sends⟩
      ⟨c.pending.filter (fun entry => entry.1 != id), c.closed, c.nextId, m.session.sends⟩ := by
  obtain ⟨tail, reading, moved⟩ := moves_of_hears heard carrier found
  have idle : ∀ task ∈ tail, task.idle = true := by
    intro task member
    obtain ⟨phase, bytes, input, rfl⟩ := reading task member
    rfl
  refine moved.balanced ?_ ?_ (numbered_unsent unsent) ?_ (fun done => done) ?_ bare (enclosed_of_idle idle)
  · simp [kept_of_hears heard, unsent]
  · rw [decided_of_hears heard distinct, found, owing, unsent, List.filterMap_cons, due_of_idle idle]
    exact .refl _
  · intro done
    rw [closed done]
    rfl
  · intro outcome member
    rcases List.mem_cons.mp member with first | later
    · cases first
    · simpa [Task.idle] using idle _ later

end Steps

/-- What was called and owed before, with what a step calls and owes: the first task is no
longer owed. -/
theorem perm_balance {α : Type} {called owed settled first calls owing decided sent heeded : List α}
    (before : (called ++ (first ++ owed)).Perm settled)
    (now : (calls ++ owing).Perm (first ++ (decided ++ sent)))
    (after : heeded.Perm (settled ++ decided)) :
    (called ++ calls ++ (owing ++ owed)).Perm (heeded ++ sent) := by
  classical
  rw [List.perm_iff_count] at *
  intro a
  have before := before a
  have now := now a
  have after := after a
  simp only [List.count_append] at *
  omega

namespace Tally

variable {l : Line} {sent : List Sent} {s : Session} {task : Task} {tasks rest : List Task}
  {events : List Event} {ms : List Moment}

section Balance

variable (h : Tally l sent s (task :: rest) events)
include h

theorem balanced_of_idle (idle : Idle s (s.step task)) (owing : task.due? = none)
    (unsent : Moment.sent ⟨s, task, rest⟩ = [])
    (nothing : ∀ entry ∈ l.pending, Moment.decides? entry.1 ⟨s, task, rest⟩ = none) :
    ∃ k, Balanced ⟨s, task, rest⟩ l k :=
  ⟨l, balanced_idle (m := ⟨s, task, rest⟩) idle h.line h.closed h.held owing unsent nothing⟩

theorem balanced_receive {phase : Frame.Phase} {bytes : List UInt8} {input : List (Supply Op)}
    (reading : task = .receive phase bytes input) : ∃ k, Balanced ⟨s, task, rest⟩ l k := by
  subst reading
  obtain ⟨c, carrier, rfl⟩ := connection_of_line h.line
  cases ended : Moment.ends ⟨s, .receive phase bytes input, rest⟩ with
  | true => exact ⟨_, balanced_ends carrier h.held ended rfl rfl⟩
  | false =>
    cases heard : Moment.hears? ⟨s, .receive phase bytes input, rest⟩ with
    | none =>
      refine h.balanced_of_idle (idle_receive rfl heard ended) rfl rfl fun entry _ => ?_
      exact Moment.decides?_of_deaf heard ended rfl entry.1
    | some response =>
      obtain ⟨id, outcome⟩ := response
      cases found : c.pending.lookup id with
      | some completion =>
        exact ⟨_, balanced_hears carrier h.closed h.held heard found h.distinct rfl rfl⟩
      | none =>
        refine h.balanced_of_idle (idle_of_hears heard carrier found) rfl rfl fun entry member => ?_
        have other : id ≠ entry.1 := by simpa using List.lookup_eq_none_iff.mp found entry member
        rw [Moment.decides?_of_hears heard, if_neg other]

theorem balanced_perform {op : Op} (performing : task = .perform op) :
    ∃ k, Balanced ⟨s, task, rest⟩ l k := by
  subst performing
  obtain ⟨c, carrier, rfl⟩ := connection_of_line h.line
  cases asked : Moment.asks? ⟨s, .perform op, rest⟩ with
  | some a =>
    cases refused : a.refusal with
    | some e => exact ⟨_, balanced_refused carrier h.closed h.held asked refused rfl⟩
    | none => exact ⟨_, balanced_accepted carrier h.closed h.held asked refused rfl⟩
  | none =>
    cases notified : Moment.notifies? ⟨s, .perform op, rest⟩ with
    | some notice => exact ⟨_, balanced_notifies carrier h.closed h.held notified rfl rfl⟩
    | none =>
      refine h.balanced_of_idle (idle_perform carrier h.held asked notified) rfl
        (Moment.sent_of_unasked asked notified) fun entry _ => ?_
      exact Moment.decides?_of_silence rfl asked entry.1

theorem balanced : ∃ k, Balanced ⟨s, task, rest⟩ l k := by
  have nothing (silence : Moment.arrival? ⟨s, task, rest⟩ = none) (unasked : Moment.asks? ⟨s, task, rest⟩ = none) :
      ∀ entry ∈ l.pending, Moment.decides? entry.1 ⟨s, task, rest⟩ = none :=
    fun entry _ => Moment.decides?_of_silence silence unasked entry.1
  cases task with
  | perform op => exact h.balanced_perform rfl
  | receive phase bytes input => exact h.balanced_receive rfl
  | finish completion outcome =>
    obtain ⟨c, carrier, rfl⟩ := connection_of_line h.line
    exact ⟨_, balanced_finish carrier h.closed h.held rfl⟩
  | stopped outcome => exact h.balanced_of_idle (.quiet rfl rfl rfl) rfl rfl (nothing rfl rfl)
  | answer r echoed reply =>
    exact h.balanced_of_idle (s.idle_answer r echoed reply) rfl rfl (nothing rfl rfl)
  | acknowledge a reply =>
    exact h.balanced_of_idle (s.idle_settleNotification a reply) rfl rfl (nothing rfl rfl)
  | release held =>
    refine h.balanced_of_idle ?_ rfl rfl (nothing rfl rfl)
    cases held with
    | responder r => exact s.idle_dropResponder r
    | acknowledger a => exact s.idle_dropAcknowledger a
    | completion c => exact .quiet rfl rfl rfl

end Balance

theorem concat (h : Tally l sent s (task :: rest) events) {k : Line}
    (balanced : Balanced ⟨s, task, rest⟩ l k) :
    Tally k (sent.map (Sent.heed ⟨s, task, rest⟩) ++ Moment.sent ⟨s, task, rest⟩)
      (s.step task).session ((s.step task).tasks ++ rest) (events ++ (s.step task).events) where
  line := balanced.line
  waiting := by rw [List.filterMap_append, waiting_heed, h.waiting, balanced.waiting]
  settled := by
    have first : (task :: rest).filterMap Task.due? = task.due?.toList ++ rest.filterMap Task.due? := by
      cases due : task.due? <;> simp [due]
    -- The calls that are due move to those made, and what the step decides makes new ones due.
    have before := h.settled
    have heeded := settled_heed ⟨s, task, rest⟩ sent
    rw [first] at before
    rw [h.waiting] at heeded
    simp only [List.filterMap_append]
    exact perm_balance before balanced.settled heeded
  numbers := by
    have same : Sent.number ∘ Sent.heed ⟨s, task, rest⟩ = Sent.number := funext (Sent.number_heed _)
    rw [List.map_append, List.map_map, same, balanced.numbered.numbers, ← h.numbers]
  ids := by
    rw [List.filterMap_append, filterMap_heed Sent.id?_heed]
    obtain ⟨none, -⟩ | ⟨one, -⟩ := balanced.numbered.ids
    · rw [none, List.append_nil]
      exact h.ids
    · rw [one, h.next, List.length_append, List.length_singleton, List.range'_concat, List.map_append, ← h.ids,
        Nat.one_mul, Nat.add_comm 1]
      rfl
  next := by
    rw [List.filterMap_append, filterMap_heed Sent.id?_heed]
    obtain ⟨none, still⟩ | ⟨one, advanced⟩ := balanced.numbered.ids
    · rw [none, List.append_nil, still, h.next]
    · rw [one, advanced, h.next, List.length_append, List.length_singleton]
      exact (Int64.ofNat_add _ 1).symm
  distinct := by
    rw [balanced.waiting]
    exact distinct_heed _ h.distinct
  closed := balanced.closed
  stopped := by
    intro outcome member
    rcases List.mem_append.mp member with now | later
    · exact balanced.stopped outcome now
    · exact balanced.opened (h.stopped outcome (List.mem_cons_of_mem _ later))
  held := balanced.held
  enclosed := enclosed_append_tail balanced.enclosed h.enclosed

theorem join (h : Tally l sent s rest events) (free : Open rest)
    (idle : ∀ task ∈ tasks, task.idle = true) {held : List (Nat × Held)}
    (kept : ∀ entry ∈ held, entry ∈ s.held) :
    Tally l sent { s with held } (tasks ++ rest) events where
  line := h.line
  waiting := h.waiting
  settled := by
    rw [List.filterMap_append, due_of_idle idle]
    exact h.settled
  numbers := h.numbers
  ids := h.ids
  next := h.next
  distinct := h.distinct
  closed := h.closed
  stopped := by
    intro outcome member
    rcases List.mem_append.mp member with now | later
    · simpa [Task.idle] using idle _ now
    · exact h.stopped outcome later
  held := fun entry member => h.held entry (kept entry member)
  enclosed := by
    exact enclosed_append_tail (enclosed_tail (enclosed_of_idle idle)) (enclosed_of_open free h.enclosed)

end Tally

/-- The ledger of a course over a byte stream fits it at every moment. -/
theorem tally_of_course {config : Config} {ms : List Moment} {t : Session} {rest : List Task}
    (course : Course (overStream config) [] ms t rest) :
    ∃ l, Tally l (ledger ms) t rest (seen ms) := by
  induction course with
  | start => exact ⟨_, tally_overStream config⟩
  | step _ ih =>
    obtain ⟨l, tally⟩ := ih
    obtain ⟨k, balanced⟩ := tally.balanced
    rw [ledger_concat, seen_append, seen_singleton]
    exact ⟨k, tally.concat balanced⟩
  | call op _ free ih =>
    obtain ⟨l, tally⟩ := ih
    have idle : ∀ task ∈ [Task.perform op], task.idle = true := by simp [Task.idle]
    exact ⟨l, tally.join free idle fun _ member => member⟩
  | letGo _ free ih =>
    obtain ⟨l, tally⟩ := ih
    refine ⟨l, tally.join free ?_ (by simp)⟩
    intro task member
    obtain ⟨entry, -, rfl⟩ := List.mem_map.mp member
    rfl

theorem carried_of_course {config : Config} {ms : List Moment} {t : Session} {rest : List Task}
    (course : Course (overStream config) [] ms t rest) : ∃ c, t.transport = .connection c ∧
      Tally ⟨c.pending, c.closed, c.nextId, t.sends⟩ (ledger ms) t rest (seen ms) := by
  obtain ⟨l, tally⟩ := tally_of_course course
  obtain ⟨c, carrier, rfl⟩ := connection_of_line tally.line
  exact ⟨c, carrier, tally⟩

end Session
end LanguageClient
