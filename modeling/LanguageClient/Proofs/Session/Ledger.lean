import LanguageClient.Proofs.Session.Idle
import LanguageClient.Proofs.Session.Reading

/-! What happens to the sends of a session, read off the steps of a course.

A step may send a message, route a response, or meet the end of a stream. The ledger of a
course lists its sends in order. A request that went out has no verdict until the first
later step that routes a response with its id or ends a stream.
-/

set_option autoImplicit false
namespace LanguageClient

open Json (Value)
open Rpc (RequestId Outcome)

/-- What a completion is told of an outcome: the one of a raw request as it is, the one of a typed request
with a result that has the shape asked for. -/
def Completion.report (c : Completion) (outcome : Except TransportError Outcome) : Completed :=
  match c.purpose, outcome with
  | .raw, .ok (.ok v) => .result v
  | .raw, .ok (.error e) => .refused e
  | .raw, .error e => .broken e
  | .typed _ result, .ok (.ok v) =>
      match result.decode v with
      | .ok d => .result (result.encode d)
      | .error cause => .failed (.requestNotSent (.codec ⟨cause, none⟩))
  | .typed _ _, .ok (.error e) => .failed (.rpc e)
  | .typed _ _, .error e => .failed (.requestNotSent e)

/-- What becomes of a request in the table: it gets an outcome, or a later request takes its place. -/
inductive Fate where
  | settled (outcome : Except TransportError Outcome)
  | displaced

def Completion.call? (c : Completion) : Fate → Option Completed
  | .settled outcome => some (c.report outcome)
  | .displaced => none

/-- Why a message is not sent: the transport is closed, or the write fails. -/
def Connection.refusal? (c : Connection) (text : List Char) : Option TransportError :=
  if c.closed then some .closed
  else match (c.writer.frame (Json.octets text)).2 with
    | .ok () => none
    | .error e => some (.stream e)

structure Asking where
  id : RequestId
  completion : Completion
  refusal : Option TransportError

namespace Session

def asking? (s : Session) (method : String) (params : Option Value) (purpose : Purpose)
    (after : List Op) : Option Asking :=
  match s.transport with
  | .connection c =>
      let id : RequestId := .number c.nextId.toInt
      some ⟨id, ⟨s.sends + 1, purpose, after⟩, c.refusal? (Rpc.writeRequest id method params)⟩
  | .scripted _ => none

def concluded (wrap : TransportError → Completed) : Option TransportError → Completed
  | none => .delivered
  | some e => wrap e

def notifying? (s : Session) (method : String) (params : Option Value)
    (wrap : TransportError → Completed) : Option (Nat × Completed) :=
  match s.transport with
  | .connection c =>
      some (s.sends + 1, concluded wrap (c.refusal? (Rpc.writeNotification method params)))
  | .scripted _ => none

end Session

namespace Moment

def asks? (m : Moment) : Option Asking :=
  match m.task with
  | .perform (.rawRequest method params after) => m.session.asking? method params .raw after
  | .perform (.sendRequest method params result after) =>
      match ClientRequest.Message.build method params with
      | .ok message => m.session.asking? method.name message.params? (.typed method result) after
      | .error _ => none
  | _ => none

def notifies? (m : Moment) : Option (Nat × Completed) :=
  match m.task with
  | .perform (.rawNotification method params _) => m.session.notifying? method params .broken
  | .perform (.sendNotification method params _) =>
      match ClientNotification.Message.build method params with
      | .ok message =>
          m.session.notifying? method.name message.params? fun e => .failed (.notificationNotSent e)
      | .error _ => none
  | _ => none

/-- What a step decides about a request that waits under an id. -/
def decides? (id : RequestId) (m : Moment) : Option Fate :=
  if m.ends then some (.settled (.error .closed))
  else match m.hears?, m.asks? with
    | some (other, outcome), _ => if other = id then some (.settled (.ok outcome)) else none
    | none, some a => if a.id = id then some .displaced else none
    | none, none => none

end Moment

namespace Moment

theorem performs_of_asks {m : Moment} {a : Asking} (asked : m.asks? = some a) : ∃ op, m.task = .perform op := by
  unfold asks? at asked
  split at asked
  · exact ⟨_, ‹_›⟩
  · exact ⟨_, ‹_›⟩
  · cases asked

theorem silent_of_performs {m : Moment} {op : Op} (performs : m.task = .perform op) : m.arrival? = none := by
  simp [arrival?, performs]

theorem unasked_of_arrival {m : Moment} {arrival : Frame.Arrival} (arrived : m.arrival? = some arrival) :
    m.asks? = none := by
  cases asked : m.asks? with
  | none => rfl
  | some a =>
    obtain ⟨op, performs⟩ := performs_of_asks asked
    rw [silent_of_performs performs] at arrived
    cases arrived

theorem decides?_of_ends {m : Moment} (ended : m.ends = true) (id : RequestId) :
    m.decides? id = some (.settled (.error .closed)) := by
  rw [decides?, if_pos ended]

theorem going_of_hears {m : Moment} {id : RequestId} {outcome : Outcome}
    (heard : m.hears? = some (id, outcome)) : m.ends = false := by
  obtain ⟨body, arrived, -⟩ := hears?_eq_some.mp heard
  exact ends_of_arrival arrived

theorem decides?_of_hears {m : Moment} {other : RequestId} {outcome : Outcome}
    (heard : m.hears? = some (other, outcome)) (id : RequestId) :
    m.decides? id = if other = id then some (.settled (.ok outcome)) else none := by
  simp [decides?, going_of_hears heard, heard]

theorem decides?_of_deaf {m : Moment} (deaf : m.hears? = none) (going : m.ends = false)
    (unasked : m.asks? = none) (id : RequestId) : m.decides? id = none := by
  simp [decides?, deaf, going, unasked]

theorem decides?_of_silence {m : Moment} (silence : m.arrival? = none) (unasked : m.asks? = none)
    (id : RequestId) : m.decides? id = none :=
  decides?_of_deaf (by simp [hears?, routes?, silence]) (by simp [ends, silence]) unasked id

theorem decides?_of_asks {m : Moment} {a : Asking} (asked : m.asks? = some a) (id : RequestId) :
    m.decides? id = if a.id = id then some .displaced else none := by
  obtain ⟨op, performs⟩ := performs_of_asks asked
  have silence := silent_of_performs performs
  simp [decides?, hears?, routes?, ends, silence, asked]

theorem asks_of_displaced {m : Moment} {id : RequestId} (displaced : m.decides? id = some .displaced) :
    ∃ a, m.asks? = some a ∧ a.id = id := by
  unfold decides? at displaced
  split at displaced
  · cases displaced
  · split at displaced
    · split at displaced <;> cases displaced
    · split at displaced
      · exact ⟨_, ‹_›, ‹_›⟩
      · cases displaced
    · cases displaced

end Moment

/-- What becomes of a request in the steps after it was sent. -/
def Asking.verdict (a : Asking) (after : List Moment) : Option Fate :=
  match a.refusal with
  | some e => some (.settled (.error e))
  | none => after.findSome? (Moment.decides? a.id)

/-- A message sent: a request with its verdict, or a notification. -/
inductive Sent where
  | request (asking : Asking) (verdict : Option Fate)
  | notification (number : Nat) (outcome : Completed)

namespace Sent

def number : Sent → Nat
  | request asking _ => asking.completion.number
  | notification number _ => number

def id? : Sent → Option RequestId
  | request asking _ => some asking.id
  | notification .. => none

def waiting? : Sent → Option (RequestId × Completion)
  | request asking none => some (asking.id, asking.completion)
  | _ => none

def settled? : Sent → Option (Nat × Completed)
  | request asking (some fate) => (asking.completion.call? fate).map (asking.completion.number, ·)
  | request _ none => none
  | notification number outcome => some (number, outcome)

def heed (m : Moment) : Sent → Sent
  | request asking none => request asking (m.decides? asking.id)
  | sent => sent

@[simp] theorem number_heed (m : Moment) (sent : Sent) : (sent.heed m).number = sent.number := by
  rcases sent with ⟨asking, _ | outcome⟩ | ⟨number, outcome⟩ <;> rfl

@[simp] theorem id?_heed (m : Moment) (sent : Sent) : (sent.heed m).id? = sent.id? := by
  rcases sent with ⟨asking, _ | outcome⟩ | ⟨number, outcome⟩ <;> rfl

end Sent

def Moment.sent (m : Moment) : List Sent :=
  match m.asks?, m.notifies? with
  | some asking, _ => [.request asking (asking.refusal.map fun e => .settled (.error e))]
  | none, some (number, outcome) => [.notification number outcome]
  | none, none => []

namespace Moment

theorem sent_of_asks {m : Moment} {a : Asking} (asked : m.asks? = some a) :
    m.sent = [.request a (a.refusal.map fun e => .settled (.error e))] := by
  simp [sent, asked]

theorem sent_of_notifies {m : Moment} {number : Nat} {outcome : Completed}
    (notified : m.notifies? = some (number, outcome)) :
    m.asks? = none ∧ m.sent = [.notification number outcome] := by
  have unasked : m.asks? = none := by
    unfold notifies? at notified
    unfold asks?
    split at notified <;> simp_all
  exact ⟨unasked, by simp [sent, unasked, notified]⟩

theorem sent_of_unasked {m : Moment} (unasked : m.asks? = none) (unnotified : m.notifies? = none) :
    m.sent = [] := by
  simp [sent, unasked, unnotified]

end Moment

namespace Session

/-- All sends of a course in order, each with what became of it so far. -/
def ledger (ms : List Moment) : List Sent :=
  ms.foldl (fun sent m => sent.map (Sent.heed m) ++ m.sent) []

theorem ledger_concat (ms : List Moment) (m : Moment) :
    ledger (ms ++ [m]) = (ledger ms).map (Sent.heed m) ++ m.sent := by
  simp [ledger]

theorem filterMap_heed {α : Type} {f : Sent → Option α} (stable : ∀ m sent, f (Sent.heed m sent) = f sent)
    (m : Moment) (sent : List Sent) : (sent.map (Sent.heed m)).filterMap f = sent.filterMap f := by
  have same : f ∘ Sent.heed m = f := funext (stable m)
  rw [List.filterMap_map, same]

theorem filterMap_ledger {α : Type} {f : Sent → Option α} (stable : ∀ m sent, f (Sent.heed m sent) = f sent)
    (ms : List Moment) : (ledger ms).filterMap f = (ms.flatMap Moment.sent).filterMap f := by
  -- The fold has to be followed from any sends that stand in the ledger already.
  have folded (ms : List Moment) (sent : List Sent) :
      (ms.foldl (fun sent m => sent.map (Sent.heed m) ++ m.sent) sent).filterMap f =
        sent.filterMap f ++ (ms.flatMap Moment.sent).filterMap f := by
    induction ms generalizing sent with
    | nil => simp
    | cons m rest ih =>
      rw [List.foldl_cons, ih, List.flatMap_cons, List.filterMap_append, List.filterMap_append,
        filterMap_heed stable, List.append_assoc]
  exact folded ms []

theorem number_ledger (ms : List Moment) :
    (ledger ms).map Sent.number = (ms.flatMap Moment.sent).map Sent.number := by
  simp only [← List.filterMap_eq_map]
  exact filterMap_ledger (fun m sent => by simp) ms

theorem id?_ledger (ms : List Moment) :
    (ledger ms).filterMap Sent.id? = (ms.filterMap Moment.asks?).map Asking.id := by
  rw [filterMap_ledger Sent.id?_heed]
  induction ms with
  | nil => rfl
  | cons m rest ih =>
    have first : m.sent.filterMap Sent.id? = (m.asks?.map Asking.id).toList := by
      unfold Moment.sent
      split <;> simp_all [Sent.id?]
    rw [List.flatMap_cons, List.filterMap_append, first, ih]
    cases asked : m.asks? <;> simp [asked]

theorem request_mem_foldl {a : Asking} {verdict : Option Fate}
    (ms : List Moment) {sent : List Sent} (member : Sent.request a verdict ∈ sent) :
    Sent.request a (verdict.or (ms.findSome? (Moment.decides? a.id))) ∈
      ms.foldl (fun sent m => sent.map (Sent.heed m) ++ m.sent) sent := by
  -- A verdict stays; without one the next step that has one counts.
  induction ms generalizing sent verdict with
  | nil => simpa using member
  | cons m rest ih =>
    have heeded : Sent.request a (verdict.or (m.decides? a.id)) ∈ sent.map (Sent.heed m) ++ m.sent := by
      refine List.mem_append_left _ (List.mem_map.mpr ⟨_, member, ?_⟩)
      cases verdict <;> rfl
    have later := ih heeded
    rw [Option.or_assoc] at later
    rw [List.foldl_cons, List.findSome?_cons]
    cases decided : m.decides? a.id with
    | none => simpa [decided] using later
    | some outcome => simpa [decided] using later

theorem request_mem_ledger (before : List Moment) {m : Moment} {a : Asking}
    (asked : m.asks? = some a) (after : List Moment) :
    Sent.request a (a.verdict after) ∈ ledger (before ++ m :: after) := by
  have entered : Sent.request a (a.refusal.map fun e => .settled (.error e)) ∈
      (ledger before).map (Sent.heed m) ++ m.sent := by
    simp [Moment.sent, asked]
  have stands := request_mem_foldl after entered
  rw [ledger, List.foldl_append, List.foldl_cons]
  cases refused : a.refusal <;> simpa [Asking.verdict, refused, ledger] using stands

theorem notification_mem_foldl {number : Nat} {outcome : Completed} (ms : List Moment)
    {sent : List Sent} (member : Sent.notification number outcome ∈ sent) :
    Sent.notification number outcome ∈
      ms.foldl (fun sent m => sent.map (Sent.heed m) ++ m.sent) sent := by
  induction ms generalizing sent with
  | nil => exact member
  | cons m rest ih => exact ih (List.mem_append_left _ (List.mem_map.mpr ⟨_, member, rfl⟩))

theorem notification_mem_ledger (before : List Moment) {m : Moment} {number : Nat}
    {outcome : Completed} (sent : Sent.notification number outcome ∈ m.sent)
    (after : List Moment) : Sent.notification number outcome ∈ ledger (before ++ m :: after) := by
  rw [ledger, List.foldl_append, List.foldl_cons]
  exact notification_mem_foldl after (List.mem_append_right _ sent)

/-! What one step does to the requests that wait: some of them get a verdict. -/

theorem waiting_heed (m : Moment) (sent : List Sent) :
    (sent.map (Sent.heed m)).filterMap Sent.waiting? =
      (sent.filterMap Sent.waiting?).filter fun entry => (m.decides? entry.1).isNone := by
  induction sent with
  | nil => rfl
  | cons first rest ih =>
    rcases first with ⟨asking, _ | outcome⟩ | ⟨number, outcome⟩
    · cases verdict : m.decides? asking.id <;>
        simp only [List.map_cons, Sent.heed, List.filterMap_cons, Sent.waiting?, List.filter_cons,
          verdict, ih, Option.isNone_none, Option.isNone_some, Bool.false_eq_true, if_true, if_false]
    · exact ih
    · exact ih

/-- The calls earned by the requests of a table that a step decides. -/
def decided (m : Moment) (table : List (RequestId × Completion)) : List (Nat × Completed) :=
  table.filterMap fun entry =>
    (m.decides? entry.1).bind fun fate => (entry.2.call? fate).map (entry.2.number, ·)

theorem settled_heed (m : Moment) (sent : List Sent) :
    ((sent.map (Sent.heed m)).filterMap Sent.settled?).Perm
      (sent.filterMap Sent.settled? ++ decided m (sent.filterMap Sent.waiting?)) := by
  induction sent with
  | nil => exact .refl _
  | cons first rest ih =>
    rcases first with ⟨asking, _ | fate⟩ | ⟨number, outcome⟩
    · cases verdict : m.decides? asking.id with
      | none =>
        simpa only [decided, List.map_cons, Sent.heed, verdict, List.filterMap_cons,
          Sent.settled?, Sent.waiting?, Option.bind_none] using ih
      | some fate =>
        simp only [decided, List.map_cons, Sent.heed, verdict, List.filterMap_cons,
          Sent.settled?, Sent.waiting?, Option.bind_some]
        cases asking.completion.call? fate with
        | none => exact ih
        | some call => exact (ih.cons _).trans List.perm_middle.symm
    · simp only [List.map_cons, Sent.heed, List.filterMap_cons, Sent.settled?, Sent.waiting?]
      cases asking.completion.call? fate with
      | none => exact ih
      | some call => exact ih.cons _
    · exact ih.cons _

end Session
end LanguageClient
