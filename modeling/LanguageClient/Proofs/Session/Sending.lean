import LanguageClient.Proofs.Session.Course

/-! What a send comes to, typed or raw.

A request is counted and given to the transport. A notification is, too, and then its completion is
called. Typed messages that can be built differ from raw ones in the records around that.
-/

set_option autoImplicit false
namespace LanguageClient

open Json (Value)

namespace Session

variable {s : Session}

/-! The transport. -/

section Transport

end Transport

/-! Sends. -/

section Sends

/-- A request is counted and given to the transport, behind some records. -/
def requesting (s : Session) (records : List Log.Record) (method : String) (params : Option Value)
    (purpose : Purpose) (after : List Op) : Turn :=
  ({ session := s.counted, events := records.map .log } : Turn).andThen fun s =>
    s.transmitRequest method params ⟨s.sends, purpose, after⟩

def notified (wrap : TransportError → Completed) : Except TransportError Unit → Completed
  | .ok () => .delivered
  | .error e => wrap e

/-- A notification is counted and given to the transport, and its completion is called, with some
records before and behind. -/
def announcing (s : Session) (front back : List Log.Record) (method : String) (params : Option Value)
    (wrap : TransportError → Completed) (after : List Op) : Turn :=
  let sent := s.counted.transmitNotification method params
  { session := sent.1
    events := front.map .log ++ sent.2.1 ++ back.map .log ++ [.completed (s.sends + 1) (notified wrap sent.2.2)]
    tasks := after.map .perform }

theorem filterMap_records {α : Type} (reads : Event → Option α) (unlogged : ∀ record, reads (.log record) = none)
    (records : List Log.Record) : (records.map Event.log).filterMap reads = [] := by
  rw [List.filterMap_map, List.filterMap_eq_nil_iff]
  exact fun record _ => unlogged record

theorem all_records {shows : Event → Bool} (logged : ∀ record, shows (.log record) = true)
    (records : List Log.Record) : (records.map Event.log).all shows = true := by
  rw [List.all_map]
  exact List.all_eq_true.mpr fun record _ => logged record

theorem records_of_typed (s : Session) (method : String) (params : Option Value) (level : Log.Level)
    (message name : String) (fields : List (String × Log.Field)) :
    ∃ records : List Log.Record,
      s.traceOutbound method params ++ [sendingLog level message name fields] = records.map .log := by
  have traced (on : Bool) (message : String) (fields : List (String × Log.Field)) :
      ∃ records : List Log.Record, wire on message fields = records.map .log := by
    cases on with
    | false => exact ⟨[], rfl⟩
    | true => exact ⟨[⟨.info, .wire, message, fields⟩], rfl⟩
  obtain ⟨records, same⟩ := traced s.tracing "message" _
  refine ⟨records ++ [⟨level, .outbound, message, ("method", .text name) :: fields⟩], ?_⟩
  rw [traceOutbound, same, List.map_append]
  rfl

theorem sendRawRequest_eq (method : String) (params : Option Value) (after : List Op) :
    s.sendRawRequest method params after = s.requesting [] method params .raw after := by
  simp only [sendRawRequest, requesting, Turn.andThen, List.map_nil, List.nil_append]

theorem sendRequest_built {method : ClientRequest} {params : Value} {message : ClientRequest.Message}
    (built : ClientRequest.Message.build method params = .ok message) (result : Schema) (after : List Op) :
    ∃ records, s.sendRequest method params result after =
      s.requesting records method.name message.params? (.typed method result) after := by
  obtain ⟨records, same⟩ := s.counted.records_of_typed method.name message.params? .debug "sending request"
    method.name []
  refine ⟨records, ?_⟩
  simp only [sendRequest, built, requesting, ← same]

theorem sendRawNotification_eq (method : String) (params : Option Value) (after : List Op) :
    s.sendRawNotification method params after = s.announcing [] [] method params .broken after := by
  simp only [sendRawNotification, announcing]
  cases (s.counted.transmitNotification method params).2.2 <;> simp [notified, counted]

theorem sendNotification_built {method : ClientNotification} {params : Value}
    {message : ClientNotification.Message} (built : ClientNotification.Message.build method params = .ok message)
    (after : List Op) : ∃ front back, s.sendNotification method params after =
      s.announcing front back method.name message.params? (fun e => .failed (.notificationNotSent e)) after := by
  obtain ⟨records, same⟩ := s.counted.records_of_typed method.name message.params? .debug "sending notification"
    method.name []
  simp only [sendNotification, built, same]
  rcases sent : s.counted.transmitNotification method.name message.params? with ⟨t, events, _ | _⟩
  · exact ⟨records, [_], by simp only [announcing, sent]; rfl⟩
  · exact ⟨records, [], by simp only [announcing, sent]; rfl⟩

end Sends

end Session
end LanguageClient
