import LanguageClient.Proofs.Frame.Writer
import LanguageClient.Proofs.Session.Completion
import Mathlib

/-! Which response belongs to which request.

Every request has an id of its own. The first response with this id that is routed while the
request waits is its outcome; no other frame makes a difference to it. So it does not matter
in which order responses to different requests arrive.
-/

set_option autoImplicit false
namespace LanguageClient

open Json (Value)
open Rpc (RequestId Outcome)

def response? (body : List UInt8) : Option (RequestId × Outcome) :=
  match Rpc.Message.ofBytes body with
  | .ok (.response (some id) outcome) => some (id, outcome)
  | _ => none

/-- What an arrival decides about a request that waits under an id. -/
def Frame.Arrival.decides? (id : RequestId) : Frame.Arrival → Option Fate
  | .frame body =>
      match response? body with
      | some (other, outcome) => if other = id then some (.settled (.ok outcome)) else none
      | none => none
  | .failed _ | .ended => some (.settled (.error .closed))
  | _ => none

namespace Moment

theorem decides?_eq {id : RequestId} {m : Moment} (apart : ∀ a, m.asks? = some a → a.id ≠ id) :
    m.decides? id = m.arrival?.bind (Frame.Arrival.decides? id) := by
  cases arrived : m.arrival? with
  | none =>
    cases asked : m.asks? with
    | none => exact decides?_of_silence arrived asked id
    | some a =>
      rw [decides?_of_asks asked, if_neg (apart a asked)]
      rfl
  | some arrival =>
    have unasked := unasked_of_arrival arrived
    have final := ends_of_arrival arrived
    cases arrival with
    | frame body =>
      have heard : m.hears? = response? body := by
        rw [hears?, routes?_eq_some.mpr arrived, Option.map_some, response?]
        rcases Rpc.Message.ofBytes body with e | message
        · rfl
        · rcases message with ⟨id, method⟩ | method | ⟨_ | other, outcome⟩ <;> rfl
      rw [decides?, final, heard, unasked, Option.bind_some, Frame.Arrival.decides?]
      rcases response? body with _ | ⟨other, outcome⟩ <;> rfl
    | failed e => exact decides?_of_ends final id
    | ended => exact decides?_of_ends final id
    | _ => simp [decides?, ends, hears?, routes?, arrived, unasked, Frame.Arrival.final, Frame.Arrival.decides?]

theorem decides?_eq_none {id : RequestId} {m : Moment} (apart : ∀ a, m.asks? = some a → a.id ≠ id) :
    m.decides? id = none ↔ m.ends = false ∧ ∀ outcome, m.hears? ≠ some (id, outcome) := by
  cases ended : m.ends with
  | true => simp [decides?_of_ends ended]
  | false =>
    simp only [decides?, ended, Bool.false_eq_true, if_false, true_and]
    rcases m.hears? with _ | ⟨other, outcome⟩
    · rcases asked : m.asks? with _ | a
      · simp
      · simp [apart a asked]
    · by_cases same : other = id <;> simp [same]

end Moment

namespace Session

def Awaits (s : Session) (a : Asking) : Prop :=
  ∃ c, s.transport = .connection c ∧ (a.id, a.completion) ∈ c.pending

/-- The calls of a completion, those made and those on the way. -/
def callsFor (a : Asking) (ms : List Moment) (rest : List Task) : List Completed :=
  callsOf a.completion.number (seen ms) ++ dueTo a.completion.number rest

/-- Every request gets the response that is meant for it. -/
structure Correlated (ms : List Moment) (t : Session) (rest : List Task) : Prop where
  distinct : ((ms.filterMap Moment.asks?).map Asking.id).Nodup
  /-- The ids are numbers that a counter of sends has room for. -/
  numbered : ∀ a ∈ ms.filterMap Moment.asks?, ∃ n : Nat, a.id = .number n ∧ 0 < n ∧ n ≤ t.sends
  /-- A request that is not refused goes out with its id, behind what was still in the buffer. -/
  wire : ∀ m ∈ ms, ∀ a, m.asks? = some a → a.refusal = none → ∃ method params left,
    @Event.written (.request a.completion.number a.id)
      (left ++ Frame.encode (Json.octets (Rpc.writeRequest a.id method params))) ∈ m.turn.events
  /-- A request waits until a response with its id is routed or a stream ends. -/
  awaited : ∀ before m after a, ms = before ++ m :: after → m.asks? = some a →
    (t.Awaits a ↔ a.refusal = none ∧
      ∀ k ∈ after, k.ends = false ∧ ∀ outcome, k.hears? ≠ some (a.id, outcome))
  uncalled : ∀ a ∈ ms.filterMap Moment.asks?, t.Awaits a → callsFor a ms rest = []
  /-- The response that comes while it waits is its outcome for good. -/
  answered : ∀ before k after a outcome, ms = before ++ k :: after →
    a ∈ before.filterMap Moment.asks? → k.session.Awaits a → k.hears? = some (a.id, outcome) →
      callsFor a ms rest = [a.completion.report (.ok outcome)]
  /-- A response takes nothing off the table but what waits under its id. -/
  taken : ∀ k ∈ ms, ∀ body id outcome, k.routes? = some body →
    Rpc.Message.ofBytes body = .ok (.response id outcome) → ∃ c d,
      k.session.transport = .connection c ∧ k.turn.session.transport = .connection d ∧
        d.pending = c.pending.filter (fun entry => some entry.1 != id) ∧
          ((∀ entry ∈ c.pending, some entry.1 ≠ id) → d.pending = c.pending)

/-! What goes out with a request. -/

section Wire

variable {s : Session} {c : Connection}

theorem written_transmitRequest (carrier : s.transport = .connection c) {method : String}
    {params : Option Value} (completion : Completion)
    (accepted : c.refusal? (Rpc.writeRequest (.number c.nextId.toInt) method params) = none) :
    ∃ left, @Event.written (.request completion.number (.number c.nextId.toInt))
      (left ++ Frame.encode (Json.octets (Rpc.writeRequest (.number c.nextId.toInt) method params))) ∈
        (s.transmitRequest method params completion).events := by
  cases closed : c.closed with
  | true => simp [Connection.refusal?, closed] at accepted
  | false =>
    rcases framed : c.writer.frame (Json.octets (Rpc.writeRequest (.number c.nextId.toInt) method params))
      with ⟨w, fault | _⟩
    · simp [Connection.refusal?, closed, framed] at accepted
    · obtain ⟨passed, empty⟩ := Frame.Writer.frame_ok framed
      rw [Frame.Writer.passed, empty, List.append_nil] at passed
      refine ⟨c.writer.passed, ?_⟩
      rw [← passed]
      simp only [transmitRequest, carrier, closed, Connection.enter, Connection.write, framed]
      exact List.mem_singleton_self _

theorem written_of_asks {m : Moment} {a : Asking} (asked : m.asks? = some a)
    (carrier : m.session.transport = .connection c) (accepted : a.refusal = none) :
    ∃ method params left, @Event.written (.request a.completion.number a.id)
      (left ++ Frame.encode (Json.octets (Rpc.writeRequest a.id method params))) ∈ m.turn.events := by
  obtain ⟨records, method, params, purpose, after, turn, asked⟩ := turn_of_asks asked
  have counted : m.session.counted.transport = .connection c := carrier
  rw [asking_eq carrier, Option.some.injEq] at asked
  subst asked
  dsimp only at accepted
  obtain ⟨left, written⟩ := written_transmitRequest counted ⟨m.session.sends + 1, purpose, after⟩ accepted
  refine ⟨method, params, left, ?_⟩
  rw [turn]
  exact List.mem_append_right _ written

end Wire

section Course

variable {config : Config} {ms before after : List Moment} {m k : Moment} {s t : Session}
  {rest : List Task} {a : Asking}

theorem asked_iff : a ∈ ms.filterMap Moment.asks? ↔
    ∃ before m after, ms = before ++ m :: after ∧ m.asks? = some a := by
  constructor
  · intro asked
    obtain ⟨m, member, asked⟩ := List.mem_filterMap.mp asked
    obtain ⟨before, after, split⟩ := List.append_of_mem member
    exact ⟨before, m, after, split, asked⟩
  · rintro ⟨before, m, after, rfl, asked⟩
    exact List.mem_filterMap.mpr ⟨m, by simp, asked⟩

theorem awaits_iff (course : Course (overStream config) [] ms t rest)
    (split : ms = before ++ m :: after) (asked : m.asks? = some a) :
    t.Awaits a ↔ a.verdict after = none := by
  obtain ⟨-, c, carrier, waits⟩ := earned_request course split asked
  rw [waits]
  constructor
  · rintro ⟨d, same, listed⟩
    obtain rfl := Transport.connection.inj (carrier.symm.trans same)
    exact listed
  · exact fun listed => ⟨c, carrier, listed⟩

/-- As long as the counter has not come round, no two requests have the same id. -/
theorem distinct_in_course (course : Course (overStream config) [] ms t rest)
    (few : (ms.filterMap Moment.asks?).length < 2 ^ 63) : ((ms.filterMap Moment.asks?).map Asking.id).Nodup := by
  obtain ⟨l, tally⟩ := tally_of_course course
  have ids := tally.ids
  rw [id?_ledger, List.length_map] at ids
  rw [ids]
  refine List.Nodup.map_on (fun i first j second same => ?_) List.nodup_range'
  rw [List.mem_range'_1] at first second
  rw [placed_eq] at same
  omega

theorem apart_in_course (course : Course (overStream config) [] ms t rest)
    (few : (ms.filterMap Moment.asks?).length < 2 ^ 63) (split : ms = before ++ m :: after) (asked : m.asks? = some a) :
    ∀ k ∈ after, ∀ b, k.asks? = some b → b.id ≠ a.id := by
  intro k member b asks same
  have distinct := distinct_in_course course few
  rw [split, List.filterMap_append, List.filterMap_cons_some asked, List.map_append, List.map_cons] at distinct
  have unlike := (List.nodup_cons.mp distinct.of_append_right).1
  exact unlike (List.mem_map.mpr ⟨b, List.mem_filterMap.mpr ⟨k, member, asks⟩, same⟩)

theorem verdict_eq_none (apart : ∀ k ∈ after, ∀ b, k.asks? = some b → b.id ≠ a.id) :
    a.verdict after = none ↔ a.refusal = none ∧
      ∀ k ∈ after, k.ends = false ∧ ∀ outcome, k.hears? ≠ some (a.id, outcome) := by
  unfold Asking.verdict
  cases a.refusal with
  | some e => simp
  | none =>
    rw [List.findSome?_eq_none_iff]
    exact ⟨fun h => ⟨rfl, fun k member => (Moment.decides?_eq_none (apart k member)).mp (h k member)⟩,
      fun h k member => (Moment.decides?_eq_none (apart k member)).mpr (h.2 k member)⟩

theorem answered_in_course (course : Course (overStream config) [] ms t rest) {outcome : Outcome}
    (split : ms = before ++ k :: after) (asked : a ∈ before.filterMap Moment.asks?)
    (awaits : k.session.Awaits a) (heard : k.hears? = some (a.id, outcome)) :
    callsFor a ms rest = [a.completion.report (.ok outcome)] := by
  -- The table holds the request as long as it has no verdict, so this response is the first one for it.
  obtain ⟨earlier, m, between, same, asks⟩ := asked_iff.mp asked
  have waiting := (awaits_iff (course.upTo split) same asks).mp awaits
  have whole : ms = earlier ++ m :: (between ++ k :: after) := by
    rw [split, same, List.append_assoc, List.cons_append]
  obtain ⟨calls, -⟩ := earned_request course whole asks
  have verdict : a.verdict (between ++ k :: after) = some (.settled (.ok outcome)) := by
    unfold Asking.verdict at waiting ⊢
    cases accepted : a.refusal with
    | some e =>
      rw [accepted] at waiting
      cases waiting
    | none =>
      rw [accepted] at waiting
      simp only [List.findSome?_append, waiting, Option.none_or, List.findSome?_cons,
        Moment.decides?_of_hears heard, if_true]
  rw [callsFor, calls, verdict]
  rfl

theorem uncalled_in_course (course : Course (overStream config) [] ms t rest)
    (asked : a ∈ ms.filterMap Moment.asks?) (awaits : t.Awaits a) : callsFor a ms rest = [] := by
  obtain ⟨before, m, after, split, asks⟩ := asked_iff.mp asked
  have waiting := (awaits_iff course split asks).mp awaits
  obtain ⟨calls, -⟩ := earned_request course split asks
  rw [callsFor, calls, waiting]
  rfl

theorem numbered_in_course (course : Course (overStream config) [] ms t rest)
    (few : (ms.filterMap Moment.asks?).length < 2 ^ 63) (asked : a ∈ ms.filterMap Moment.asks?) :
    ∃ n : Nat, a.id = .number n ∧ 0 < n ∧ n ≤ t.sends := by
  obtain ⟨before, m, after, split, asks⟩ := asked_iff.mp asked
  have sends : (ledger ms).length = t.sends := by
    obtain ⟨c, -, tally⟩ := carried_of_course course
    simpa using congrArg List.length tally.numbers
  have most : (ms.filterMap Moment.asks?).length ≤ t.sends := by
    have ids := congrArg List.length (id?_ledger ms)
    rw [List.length_map] at ids
    rw [← sends, ← ids]
    exact List.length_filterMap_le _ _
  have id := id_of_asks course split asks
  rw [split, List.filterMap_append, List.filterMap_cons_some asks, List.length_append, List.length_cons] at few most
  rw [placed_of_lt (by omega)] at id
  exact ⟨_, id, by omega, by omega⟩

theorem taken_in_course (course : Course (overStream config) [] ms t rest) (member : k ∈ ms)
    {body : List UInt8} {id : Option RequestId} {outcome : Outcome} (routed : k.routes? = some body)
    (response : Rpc.Message.ofBytes body = .ok (.response id outcome)) : ∃ c d,
      k.session.transport = .connection c ∧ k.turn.session.transport = .connection d ∧
        d.pending = c.pending.filter fun entry => some entry.1 != id := by
  obtain ⟨before, after, split⟩ := List.append_of_mem member
  obtain ⟨c, carrier, -⟩ := carried_of_course (course.upTo split)
  have arrived := Moment.routes?_eq_some.mp routed
  have untouched (idle : Idle k.session k.turn) : ∃ d, k.turn.session.transport = .connection d ∧
      d.pending = c.pending := by
    obtain ⟨d, carries, same⟩ := connection_of_line (idle.line.trans (line_of_connection carrier))
    exact ⟨d, carries, (congrArg Line.pending same).symm⟩
  cases id with
  | none =>
    have idle : Idle k.session (k.session.meet (.frame body)) := by
      simp only [meet, route, response]
      exact .quiet rfl rfl rfl
    obtain ⟨d, carries, same⟩ := untouched (idle_of_arrival arrived idle)
    have all : (c.pending.filter fun entry => some entry.1 != none) = c.pending :=
      List.filter_eq_self.mpr fun _ _ => rfl
    exact ⟨c, d, carrier, carries, same.trans all.symm⟩
  | some id =>
    have heard : k.hears? = some (id, outcome) := Moment.hears?_eq_some.mpr ⟨body, arrived, response⟩
    cases found : c.pending.lookup id with
    | some completion =>
      obtain ⟨tail, -, moved⟩ := moves_of_hears heard carrier found
      obtain ⟨d, carries, same⟩ := connection_of_line moved.line
      exact ⟨c, d, carrier, carries, (congrArg Line.pending same).symm⟩
    | none =>
      obtain ⟨d, carries, same⟩ := untouched (idle_of_hears heard carrier found)
      refine ⟨c, d, carrier, carries, same.trans (List.filter_eq_self.mpr fun entry listed => ?_).symm⟩
      have other : id ≠ entry.1 := by simpa using List.lookup_eq_none_iff.mp found entry listed
      simpa using other.symm

theorem correlated (course : Course (overStream config) [] ms t rest)
    (few : (ms.filterMap Moment.asks?).length < 2 ^ 63) : Correlated ms t rest where
  distinct := distinct_in_course course few
  numbered := fun _ asked => numbered_in_course course few asked
  wire := by
    intro m member a asked accepted
    obtain ⟨before, after, split⟩ := List.append_of_mem member
    obtain ⟨c, carrier, -⟩ := carried_of_course (course.upTo split)
    exact written_of_asks asked carrier accepted
  awaited := by
    intro before m after a split asked
    rw [awaits_iff course split asked, verdict_eq_none (apart_in_course course few split asked)]
  uncalled := fun _ asked awaits => uncalled_in_course course asked awaits
  answered := fun _ _ _ _ _ split asked awaits heard => answered_in_course course split asked awaits heard
  taken := by
    intro k member body id outcome routed response
    obtain ⟨c, d, carrier, carries, kept⟩ := taken_in_course course member routed response
    refine ⟨c, d, carrier, carries, kept, fun nobody => ?_⟩
    rw [kept]
    exact List.filter_eq_self.mpr fun entry listed => by simpa using nobody entry listed

end Course

/-! The order of responses. -/

/-- Arrivals in another order that no request in the table can tell apart: some of them have
changed places, and at most one of these decides about any request that waits. -/
def Reordered (s : Session) (first second : List Frame.Arrival) : Prop :=
  ∃ early block moved late, first = early ++ block ++ late ∧ second = early ++ moved ++ late ∧
    block.Perm moved ∧
      ∀ a, s.Awaits a → (block.filterMap (Frame.Arrival.decides? a.id)).length ≤ 1

theorem decides?_frame (id : RequestId) (body : List UInt8) :
    (Frame.Arrival.decides? id (.frame body)).isSome = ((response? body).map Prod.fst == some id) := by
  simp only [Frame.Arrival.decides?]
  rcases response? body with _ | ⟨other, outcome⟩
  · rfl
  · by_cases same : other = id <;> simp [same]

theorem length_decided (id : RequestId) (bodies : List (List UInt8)) :
    ((bodies.map Frame.Arrival.frame).filterMap (Frame.Arrival.decides? id)).length =
      (bodies.filterMap fun body => (response? body).map Prod.fst).count id := by
  induction bodies with
  | nil => rfl
  | cons body bodies ih =>
    have first := decides?_frame id body
    rw [List.map_cons, List.filterMap_cons, List.filterMap_cons]
    cases decided : Frame.Arrival.decides? id (.frame body) with
    | none =>
      rw [decided] at first
      cases answered : (response? body).map Prod.fst with
      | none => exact ih
      | some other =>
        have apart : other ≠ id := by simpa [answered] using first
        rw [List.count_cons_of_ne apart]
        exact ih
    | some outcome =>
      rw [decided] at first
      have answered : (response? body).map Prod.fst = some id := by simpa using first.symm
      rw [answered, List.count_cons_self, List.length_cons, ih]

theorem reordered_of_distinct (s : Session) {bodies moved : List (List UInt8)} (perm : bodies.Perm moved)
    (distinct : (bodies.filterMap fun body => (response? body).map Prod.fst).Nodup) (early late : List Frame.Arrival) :
    Reordered s (early ++ bodies.map .frame ++ late) (early ++ moved.map .frame ++ late) := by
  refine ⟨early, _, _, late, rfl, rfl, perm.map _, fun a _ => ?_⟩
  rw [length_decided]
  exact List.nodup_iff_count_le_one.mp distinct a.id

theorem findSome?_reordered {s : Session} {first second : List Frame.Arrival} {a : Asking}
    (reordered : Reordered s first second) (awaits : s.Awaits a) :
    first.findSome? (Frame.Arrival.decides? a.id) = second.findSome? (Frame.Arrival.decides? a.id) := by
  obtain ⟨early, block, moved, late, rfl, rfl, perm, alone⟩ := reordered
  have few := alone a awaits
  -- One decision at most falls into the block, so its place there does not matter.
  have same : block.filterMap (Frame.Arrival.decides? a.id) =
      moved.filterMap (Frame.Arrival.decides? a.id) := by
    have perm := perm.filterMap (Frame.Arrival.decides? a.id)
    rcases decided : block.filterMap (Frame.Arrival.decides? a.id) with _ | ⟨fate, others⟩
    · rw [decided] at perm
      exact perm.nil_eq
    · rw [decided, List.length_cons] at few
      have none : others = [] := List.length_eq_zero_iff.mp (by omega)
      rw [decided, none] at perm
      rw [none]
      exact perm.singleton_eq
  rw [← List.head?_filterMap, ← List.head?_filterMap]
  simp only [List.filterMap_append, same]

theorem findSome?_arrivals {id : RequestId} {ms : List Moment}
    (apart : ∀ m ∈ ms, ∀ a, m.asks? = some a → a.id ≠ id) :
    ms.findSome? (Moment.decides? id) =
      (ms.filterMap Moment.arrival?).findSome? (Frame.Arrival.decides? id) := by
  rw [← List.head?_filterMap, ← List.head?_filterMap, List.filterMap_filterMap]
  exact congrArg List.head? (List.filterMap_congr fun m member => Moment.decides?_eq (apart m member))

section Course

variable {config : Config} {ms : List Moment} {s : Session} {rest : List Task}

theorem verdict_append {a : Asking} (after : List Moment) {ns : List Moment}
    (apart : ∀ m ∈ ns, ∀ b, m.asks? = some b → b.id ≠ a.id) :
    a.verdict (after ++ ns) =
      (a.verdict after).or ((ns.filterMap Moment.arrival?).findSome? (Frame.Arrival.decides? a.id)) := by
  unfold Asking.verdict
  cases a.refusal with
  | some e => rfl
  | none => rw [List.findSome?_append, findSome?_arrivals apart]

theorem callsFor_append (course : Course (overStream config) [] ms s rest) {ns before after : List Moment} {m : Moment}
    {t : Session} {left : List Task} (onward : Course s rest ns t left) {a : Asking}
    (split : ms = before ++ m :: after) (asked : m.asks? = some a)
    (few : ((ms ++ ns).filterMap Moment.asks?).length < 2 ^ 63) :
    callsFor a (ms ++ ns) left = (((a.verdict after).or
      ((ns.filterMap Moment.arrival?).findSome? (Frame.Arrival.decides? a.id))).bind a.completion.call?).toList := by
  have whole : ms ++ ns = before ++ m :: (after ++ ns) := by rw [split, List.append_assoc, List.cons_append]
  obtain ⟨calls, -⟩ := earned_request (course.trans onward) whole asked
  have apart := apart_in_course (course.trans onward) few whole asked
  rw [callsFor, calls, verdict_append after fun k member => apart k (List.mem_append_right _ member)]

/-- Every request has an id of its own and gets the first response with this id that comes
while it waits; responses to different requests may come in any order. -/
theorem correlated_of_course (course : Course (overStream config) [] ms s rest)
    (few : (ms.filterMap Moment.asks?).length < 2 ^ 63) :
    Correlated ms s rest ∧
      ∀ ns others t u left due, Course s rest ns t left → Course s rest others u due →
        ((ms ++ ns).filterMap Moment.asks?).length < 2 ^ 63 →
        ((ms ++ others).filterMap Moment.asks?).length < 2 ^ 63 →
          Reordered s (ns.filterMap Moment.arrival?) (others.filterMap Moment.arrival?) →
            ∀ a ∈ ms.filterMap Moment.asks?, callsFor a (ms ++ ns) left = callsFor a (ms ++ others) due := by
  refine ⟨correlated course few, ?_⟩
  intro ns others t u left due one other fewer less reordered a asked
  obtain ⟨before, m, after, split, asks⟩ := asked_iff.mp asked
  rw [callsFor_append course one split asks fewer, callsFor_append course other split asks less]
  -- A request that has its verdict keeps it; one that still waits cannot tell the orders apart.
  cases decided : a.verdict after with
  | some fate => rfl
  | none => rw [findSome?_reordered reordered ((awaits_iff course split asks).mpr decided)]

def reply (n : Int) : List UInt8 :=
  Json.octets (Json.writeRecord
    [("id", (RequestId.number n).toValue.write), ("result", (RequestId.number n).toValue.write)])

def replies (first second : Int) : Op :=
  .serve [.bytes (Frame.encode (reply first) ++ Frame.encode (reply second))]

theorem correlated_in_either_order : ∃ ms s, Course (overStream {}) [] ms s [] ∧ Correlated ms s [] ∧
    (ms.filterMap Moment.asks?).map Asking.id = [.number 1, .number 2] ∧
      (ms.filterMap Moment.asks?).map
          (fun a => callsFor a (ms ++ trail 6 s [.perform (replies 1 2)]) (s.execute 6 (replies 1 2)).tasks) =
        [[.result (RequestId.number 1).toValue], [.result (RequestId.number 2).toValue]] ∧
      ∀ a ∈ ms.filterMap Moment.asks?,
        callsFor a (ms ++ trail 6 s [.perform (replies 1 2)]) (s.execute 6 (replies 1 2)).tasks =
          callsFor a (ms ++ trail 6 s [.perform (replies 2 1)]) (s.execute 6 (replies 2 1)).tasks := by
  let asking : List Task := [.perform (.rawRequest "a" none []), .perform (.rawRequest "b" none [])]
  have called : Course (overStream {}) [] [] (overStream {}) asking :=
    (Course.start.call (.rawRequest "b" none []) open_nil).call _ (open_perform _ _)
  have sent := called.trans (Course.of_run 2 (overStream {}) asking)
  have done : ((overStream {}).run 2 asking).tasks = [] := by cbv
  rw [done, List.nil_append] at sent
  obtain ⟨ms, s, course, ids, told, one, other, unasked, unaskedToo⟩ : ∃ ms s, Course (overStream {}) [] ms s [] ∧
      (ms.filterMap Moment.asks?).map Asking.id = [.number 1, .number 2] ∧
      (ms.filterMap Moment.asks?).map
          (fun a => callsFor a (ms ++ trail 6 s [.perform (replies 1 2)]) (s.execute 6 (replies 1 2)).tasks) =
        [[.result (RequestId.number 1).toValue], [.result (RequestId.number 2).toValue]] ∧
      (trail 6 s [.perform (replies 1 2)]).filterMap Moment.arrival? = [.frame (reply 1), .frame (reply 2)] ∧
      (trail 6 s [.perform (replies 2 1)]).filterMap Moment.arrival? = [.frame (reply 2), .frame (reply 1)] ∧
      (trail 6 s [.perform (replies 1 2)]).filterMap Moment.asks? = [] ∧
      (trail 6 s [.perform (replies 2 1)]).filterMap Moment.asks? = [] :=
    ⟨_, _, sent, by cbv, by cbv, by cbv, by cbv, by cbv, by cbv⟩
  have few : (ms.filterMap Moment.asks?).length < 2 ^ 63 := by
    have two := congrArg List.length ids
    rw [List.length_map] at two
    rw [two]
    decide
  have distinct : ([reply 1, reply 2].filterMap fun body => (response? body).map Prod.fst).Nodup := by
    have ids : ([reply 1, reply 2].filterMap fun body => (response? body).map Prod.fst) =
        [.number 1, .number 2] := by cbv
    rw [ids]
    decide
  obtain ⟨correlated, alike⟩ := correlated_of_course course few
  refine ⟨ms, s, course, correlated, ids, told, alike _ _ _ _ _ _
    (Course.start.execute 6 (replies 1 2)) (Course.start.execute 6 (replies 2 1)) ?_ ?_ ?_⟩
  · rwa [List.filterMap_append, unasked, List.append_nil]
  · rwa [List.filterMap_append, unaskedToo, List.append_nil]
  · rw [one, other]
    exact reordered_of_distinct s (List.Perm.swap _ _ _) distinct [] []

end Course

end Session
end LanguageClient
