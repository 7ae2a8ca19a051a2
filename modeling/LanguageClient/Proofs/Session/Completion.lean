import LanguageClient.Proofs.Session.Account
import LanguageClient.Proofs.Session.Tally
import Mathlib

/-! Every send over a byte stream comes to one end.

The completion of a notification is called while it is sent. A request has a verdict as
soon as it is refused, answered, or cut off by the end of a stream; until then it waits in
the table, and afterwards its completion has been called once, or its call is the next
thing on the way. Only when the counter of ids has come round while a request waits does a
later one take its place, and then its completion is never called.
-/

set_option autoImplicit false
namespace LanguageClient.Session

open Rpc (RequestId RpcError Outcome)

/-- How the completion of a send was called. -/
def callsOf (number : Nat) (events : List Event) : List Completed :=
  under number (events.filterMap Event.completion?)

/-- How the completion of a send is going to be called by the tasks at hand. -/
def dueTo (number : Nat) (tasks : List Task) : List Completed :=
  under number (tasks.filterMap Task.due?)

/-- Every send comes to one end. -/
structure Concluded (ms : List Moment) (t : Session) (rest : List Task) : Prop where
  /-- Sends are numbered in order, so a number stands for one completion. -/
  numbers : (ms.flatMap Moment.sent).map Sent.number = List.range' 1 t.sends
  once : ∀ number, (callsOf number (seen ms)).length ≤ 1
  /-- A notification is over when it has been sent. -/
  notification : ∀ before m after number outcome, ms = before ++ m :: after →
    m.notifies? = some (number, outcome) →
      m.turn.events.filterMap Event.completion? = [(number, outcome)] ∧
        callsOf number (seen ms) = [outcome]
  /-- A request waits until it has a verdict; then its completion is called once, with it. -/
  request : ∀ before m after a, ms = before ++ m :: after → m.asks? = some a →
    callsOf a.completion.number (seen ms) ++ dueTo a.completion.number rest =
        ((a.verdict after).bind a.completion.call?).toList ∧
      ∃ c, t.transport = .connection c ∧
        (a.verdict after = none ↔ (a.id, a.completion) ∈ c.pending)
  /-- It takes all the ids there are to bring the id of a waiting request up again. -/
  displaced : ∀ before m after a, ms = before ++ m :: after → m.asks? = some a →
    a.verdict after = some .displaced → 2 ^ 64 ≤ (after.filterMap Moment.asks?).length
  /-- Outside of a reading no call is put off. -/
  prompt : Open rest → rest.any Task.serves = false → ∀ number, dueTo number rest = []
  /-- When the outermost reading of a stream is over, nothing waits any longer. -/
  served : ∀ before m after outcome, ms = before ++ m :: after → m.task = .stopped outcome →
    m.later.any Task.serves = false →
      (∃ c, m.session.transport = .connection c ∧ c.closed = true ∧ c.pending = []) ∧
        ∀ earlier sending between a, before = earlier ++ sending :: between →
          sending.asks? = some a → ∃ fate, a.verdict between = some fate ∧
            callsOf a.completion.number (seen before) = (a.completion.call? fate).toList

/-! In a ledger whose numbers differ, the calls under a number are those of one send. -/

theorem settled_number {x : Sent} {call : Nat × Completed} (settled : x.settled? = some call) :
    call.1 = x.number := by
  rcases x with ⟨asking, _ | fate⟩ | ⟨number, outcome⟩
  · cases settled
  · obtain ⟨told, -, rfl⟩ := Option.map_eq_some_iff.mp settled
    rfl
  · cases settled
    rfl

theorem keys_settled (sent : List Sent) :
    ((sent.filterMap Sent.settled?).map Prod.fst).Sublist (sent.map Sent.number) := by
  induction sent with
  | nil => exact .slnil
  | cons first rest ih =>
    cases settled : first.settled? with
    | none =>
      rw [List.filterMap_cons_none settled]
      exact ih.cons _
    | some call =>
      rw [List.filterMap_cons_some settled, List.map_cons, settled_number settled]
      exact ih.cons_cons _

theorem under_settled {sent : List Sent} (distinct : (sent.map Sent.number).Nodup) {x : Sent}
    (member : x ∈ sent) :
    under x.number (sent.filterMap Sent.settled?) = (x.settled?.map Prod.snd).toList := by
  cases settled : x.settled? with
  | some call =>
    have listed := List.mem_filterMap.mpr ⟨x, member, settled⟩
    rw [← settled_number settled]
    exact under_of_mem (distinct.sublist (keys_settled sent)) listed
  | none =>
    -- Another send with its number would be the same one, and that has no call.
    refine under_absent fun listed => ?_
    obtain ⟨call, called, same⟩ := List.mem_map.mp listed
    obtain ⟨y, other, earned⟩ := List.mem_filterMap.mp called
    have equal : y = x := List.inj_on_of_nodup_map distinct other member
      ((settled_number earned).symm.trans same)
    rw [equal, settled] at earned
    cases earned

namespace Tally

variable {l : Line} {sent : List Sent} {s : Session} {tasks : List Task} {events : List Event}

theorem apart (h : Tally l sent s tasks events) : (sent.map Sent.number).Nodup := by
  rw [h.numbers]
  exact List.nodup_range'

/-- What was called and what is due under a number is what its send has earned. -/
theorem under_eq (h : Tally l sent s tasks events) (number : Nat) :
    (callsOf number events ++ dueTo number tasks).Perm
      (under number (sent.filterMap Sent.settled?)) := by
  rw [callsOf, dueTo, ← under_append]
  exact h.settled.filterMap _

theorem earned (h : Tally l sent s tasks events) {x : Sent} (member : x ∈ sent) :
    callsOf x.number events ++ dueTo x.number tasks = (x.settled?.map Prod.snd).toList := by
  have perm := h.under_eq x.number
  rw [under_settled h.apart member] at perm
  cases settled : x.settled? with
  | none => simpa [settled] using perm
  | some call => simpa [settled] using perm

theorem once (h : Tally l sent s tasks events) (number : Nat) :
    (callsOf number events ++ dueTo number tasks).length ≤ 1 := by
  rw [(h.under_eq number).length_eq]
  exact under_length (h.apart.sublist (keys_settled sent)) number

/-- A request waits in the table exactly as long as it has no verdict. -/
theorem waits (h : Tally l sent s tasks events) {a : Asking} {verdict : Option Fate}
    (member : Sent.request a verdict ∈ sent) : verdict = none ↔ (a.id, a.completion) ∈ l.pending := by
  rw [← h.waiting]
  constructor
  · rintro rfl
    exact List.mem_filterMap.mpr ⟨_, member, rfl⟩
  · intro waiting
    obtain ⟨y, listed, same⟩ := List.mem_filterMap.mp waiting
    rcases y with ⟨other, _ | outcome⟩ | ⟨number, outcome⟩
    · simp only [Sent.waiting?, Option.some.injEq, Prod.mk.injEq] at same
      have equal : Sent.request other none = Sent.request a verdict :=
        List.inj_on_of_nodup_map h.apart listed member (by simp [Sent.number, same.2])
      cases equal
      rfl
    · cases same
    · cases same

end Tally

section Course

variable {config : Config} {ms before after : List Moment} {m : Moment} {t : Session}
  {rest : List Task} {outcome : Except StreamError Unit}

theorem earned_request (course : Course (overStream config) [] ms t rest) {a : Asking}
    (split : ms = before ++ m :: after) (asked : m.asks? = some a) :
    callsOf a.completion.number (seen ms) ++ dueTo a.completion.number rest =
        ((a.verdict after).bind a.completion.call?).toList ∧
      ∃ c, t.transport = .connection c ∧
        (a.verdict after = none ↔ (a.id, a.completion) ∈ c.pending) := by
  obtain ⟨c, carrier, tally⟩ := carried_of_course course
  have member := request_mem_ledger before asked after
  rw [← split] at member
  refine ⟨?_, c, carrier, tally.waits member⟩
  have earned := tally.earned member
  rw [Sent.number] at earned
  rw [earned]
  cases a.verdict after with
  | none => rfl
  | some fate => simp [Sent.settled?, Function.comp_def]

/-- The id of a request tells how many were sent before it, as far as the counter goes. -/
theorem id_of_asks (course : Course (overStream config) [] ms t rest) (split : ms = before ++ m :: after)
    {a : Asking} (asked : m.asks? = some a) : a.id = placed ((before.filterMap Moment.asks?).length + 1) := by
  obtain ⟨c, carrier, tally⟩ := carried_of_course (course.upTo split)
  have next : c.nextId = _ := tally.next
  rw [(sends_of_asks asked carrier tally.closed).id, next, id?_ledger, List.length_map]
  rfl

theorem displaced_in_course (course : Course (overStream config) [] ms t rest) {a : Asking}
    (split : ms = before ++ m :: after) (asked : m.asks? = some a) (displaced : a.verdict after = some .displaced) :
    2 ^ 64 ≤ (after.filterMap Moment.asks?).length := by
  unfold Asking.verdict at displaced
  split at displaced
  · cases displaced
  · obtain ⟨between, k, later, rfl, decided, -⟩ := List.findSome?_eq_some_iff.mp displaced
    obtain ⟨b, asks, same⟩ := Moment.asks_of_displaced decided
    have whole : ms = (before ++ m :: between) ++ k :: later := by
      rw [split, List.append_assoc, List.cons_append]
    rw [id_of_asks course whole asks, id_of_asks course split asked, placed_eq] at same
    simp only [List.filterMap_append, List.filterMap_cons, asked, asks, List.length_append, List.length_cons] at same ⊢
    omega

theorem called_of_mem {number : Nat} {outcome : Completed} (member : m ∈ ms)
    (calls : m.turn.events.filterMap Event.completion? = [(number, outcome)]) :
    outcome ∈ callsOf number (seen ms) := by
  have here : (number, outcome) ∈ m.turn.events.filterMap Event.completion? := by
    rw [calls]
    exact List.mem_singleton_self _
  obtain ⟨event, shown, call⟩ := List.mem_filterMap.mp here
  have anywhere : event ∈ seen ms := List.mem_flatMap.mpr ⟨m, member, shown⟩
  exact List.mem_filterMap.mpr ⟨_, List.mem_filterMap.mpr ⟨event, anywhere, call⟩, if_pos rfl⟩

theorem called_once {number : Nat} {outcome : Completed} {more : List Completed}
    (called : outcome ∈ callsOf number (seen ms)) (earned : callsOf number (seen ms) ++ more = [outcome]) :
    callsOf number (seen ms) = [outcome] := by
  rcases List.append_eq_singleton_iff.mp earned with ⟨none, -⟩ | ⟨once, -⟩
  · rw [none] at called
    cases called
  · exact once

theorem earned_notification (course : Course (overStream config) [] ms t rest) {number : Nat}
    {outcome : Completed} (split : ms = before ++ m :: after)
    (notified : m.notifies? = some (number, outcome)) :
    m.turn.events.filterMap Event.completion? = [(number, outcome)] ∧
      callsOf number (seen ms) = [outcome] := by
  obtain ⟨c, carrier, -⟩ := carried_of_course (course.upTo split)
  obtain ⟨-, next, moved⟩ := moves_of_notifies notified carrier
  obtain ⟨d, -, tally⟩ := carried_of_course course
  have sent := (Moment.sent_of_notifies notified).2
  have member := notification_mem_ledger before (m := m) (by rw [sent]; exact List.mem_singleton_self _)
    after
  rw [← split] at member
  refine ⟨moved.calls, ?_⟩
  have called : outcome ∈ callsOf number (seen ms) := called_of_mem (by simp [split]) moved.calls
  have earned := tally.earned member
  simp only [Sent.number, Sent.settled?, Option.map_some, Option.toList_some] at earned
  exact called_once called earned

theorem due_of_enclosed {tasks : List Task} (h : Enclosed tasks)
    (outside : tasks.any Task.serves = false) (number : Nat) : dueTo number tasks = [] := by
  rw [dueTo, due_eq_nil h outside]
  rfl

/-- Where the outermost reading of a stream is over, the table is empty, so every request sent
before has its verdict; nothing is due, so its completion has been called. -/
theorem settled_when_served (course : Course (overStream config) [] before t (.stopped outcome :: rest))
    (outermost : rest.any Task.serves = false) :
    (∃ c, t.transport = .connection c ∧ c.closed = true ∧ c.pending = []) ∧
      ∀ earlier sending between a, before = earlier ++ sending :: between →
        sending.asks? = some a → ∃ fate, a.verdict between = some fate ∧
          callsOf a.completion.number (seen before) = (a.completion.call? fate).toList := by
  obtain ⟨c, carrier, tally⟩ := carried_of_course course
  have closed := tally.stopped outcome List.mem_cons_self
  have empty := tally.closed closed
  refine ⟨⟨c, carrier, closed, empty⟩, ?_⟩
  intro earlier sending between a same asked
  obtain ⟨calls, d, carrying, waiting⟩ := earned_request course same asked
  obtain rfl : c = d := by simpa [carrier] using carrying
  have owed : dueTo a.completion.number (.stopped outcome :: rest) = [] :=
    due_of_enclosed (show Enclosed rest from tally.enclosed) outermost _
  rw [owed, List.append_nil] at calls
  cases verdict : a.verdict between with
  | none =>
    have listed : (a.id, a.completion) ∈ c.pending := waiting.mp verdict
    rw [show c.pending = [] from empty] at listed
    cases listed
  | some fate => exact ⟨fate, rfl, by simpa [verdict] using calls⟩

/-- Every send comes to one end, whatever else is done before, meanwhile and afterwards. -/
theorem concluded_of_course (course : Course (overStream config) [] ms t rest) : Concluded ms t rest where
  numbers := by
    obtain ⟨c, -, tally⟩ := carried_of_course course
    rw [← number_ledger]
    exact tally.numbers
  once := by
    intro number
    obtain ⟨c, -, tally⟩ := carried_of_course course
    have once := tally.once number
    rw [List.length_append] at once
    omega
  notification := fun _ _ _ _ _ split notified => earned_notification course split notified
  request := fun _ _ _ _ split asked => earned_request course split asked
  displaced := fun _ _ _ _ split asked => displaced_in_course course split asked
  prompt := by
    intro free outside number
    obtain ⟨c, -, tally⟩ := carried_of_course course
    exact due_of_enclosed (enclosed_of_open free tally.enclosed) outside number
  served := by
    intro before m after outcome split stopped outermost
    have upTo := course.upTo split
    rw [stopped] at upTo
    exact settled_when_served upTo outermost

def refusing : List UInt8 :=
  Json.octets (Json.writeRecord [("id", (RequestId.number 1).toValue.write), ("error", (RpcError.new 3 "no").write)])

def asking : List Task :=
  [.perform (.rawRequest "initialize" none []), .perform (.rawRequest "shutdown" none []),
    .perform (.serve [.bytes (Frame.encode refusing)]), .perform (.rawRequest "shutdown" none [])]

/-- A request that the peer refuses, one that the end of the stream cuts off, and one after it. -/
theorem concluded_at_end_of_stream :
    ∃ ms t, Course (overStream {}) [] ms t [] ∧ Concluded ms t [] ∧
      callsOf 1 (seen ms) = [.refused (.new 3 "no")] ∧ callsOf 2 (seen ms) = [.broken .closed] ∧
        callsOf 3 (seen ms) = [.broken .closed] := by
  have called : Course (overStream {}) [] [] (overStream {}) asking :=
    (((Course.start.call _ open_nil).call _ (open_perform _ _)).call _ (open_perform _ _)).call _ (open_perform _ _)
  have course := called.trans (Course.of_run 11 (overStream {}) asking)
  have done : ((overStream {}).run 11 asking).tasks = [] := List.isEmpty_iff.mp (by decide +kernel)
  rw [done] at course
  refine ⟨_, _, course, concluded_of_course course, ?_⟩
  rw [List.nil_append, seen_trail]
  exact ⟨by cbv, by cbv, by cbv⟩

end Course

end LanguageClient.Session
