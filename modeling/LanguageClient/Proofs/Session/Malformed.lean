import LanguageClient.Proofs.Schema.Soundness
import LanguageClient.Proofs.Session.Reply

/-! Bodies that are no messages.

A body that is the text of neither an object nor a list is reported and nothing else comes
of it. A list is read like an object, its items being the members in their declared order.
-/

set_option autoImplicit false
namespace LanguageClient

open Json (Value octets)
open Json.Grammar (Text)
open Rpc (RequestId Response)

/-- The text of neither an object nor a list. -/
def Shapeless (body : List UInt8) : Prop := ∀ kind, ¬ Text kind body

def Event.outer : Event → Bool
  | .log _ => false
  | _ => true

section Reading

variable {body : List UInt8}

theorem unread_of_shapeless (shapeless : Shapeless body) (name : String) (fields : List (Field Schema)) :
    ∃ e, (Schema.record name fields).read body = .error e := by
  cases read : (Schema.record name fields).read body with
  | error e => exact ⟨e, rfl⟩
  | ok d =>
    obtain ⟨kind, text⟩ := Schema.text_of_record read
    exact absurd text (shapeless kind)

theorem ofBytes_shapeless (shapeless : Shapeless body) : ∃ e, Rpc.Message.ofBytes body = .error e := by
  obtain ⟨e, unread⟩ := unread_of_shapeless shapeless _ _
  exact ⟨e, congrArg (Except.map Rpc.Message.ofData) unread⟩

theorem decode_shapeless (shapeless : Shapeless body) (schema : Schema) (policy : ParamsPolicy) :
    ∃ e, Payload.decode schema policy body = .error (.undecodable e) := by
  obtain ⟨e, unread⟩ := unread_of_shapeless shapeless _ _
  have params : Payload.params body = .error e := congrArg (Except.map Payload.paramsOf) unread
  exact ⟨e, by rw [Payload.decode, params]⟩

end Reading

namespace Session

variable {s : Session} {body : List UInt8}

theorem outer_reportFrame (s : Session) (e : TransportError) :
    (s.reportFrame e).events.filter Event.outer = if s.attached then [.transportError e] else [] := by
  cases attached : s.attached <;> simp only [reportFrame, attached] <;> rfl

theorem silent_reportFrame (s : Session) (e : TransportError) :
    (s.reportFrame e).session = s ∧ (s.reportFrame e).tasks = [] := by
  cases attached : s.attached <;> simp only [reportFrame, attached] <;> exact ⟨rfl, rfl⟩

/-- A body that is the text of neither an object nor a list is no message, nor are there params in
it. It is reported once; the session stays as it was, with nothing to do. -/
theorem refused_of_shapeless (s : Session) {body : List UInt8} (shapeless : Shapeless body) :
    (∀ (method : ServerNotification) (policy : ParamsPolicy),
        ∃ e, ServerNotification.Message.decode method body policy = .error (.undecodable e)) ∧
      (∀ method : ServerRequest, ∃ e, ServerRequest.Message.decode method body = .error (.undecodable e)) ∧
      ∃ e, Rpc.Message.ofBytes body = .error e ∧ (s.route body).session = s ∧ (s.route body).tasks = [] ∧
        (s.route body).events.filter Event.outer =
          if s.attached then [.transportError (.codec e)] else [] := by
  refine ⟨fun method policy => ?_, fun method => ?_, ?_⟩
  · obtain ⟨e, undecodable⟩ := decode_shapeless shapeless method.params policy
    exact ⟨e, by rw [ServerNotification.Message.decode, undecodable]; rfl⟩
  · rw [ServerRequest.Message.decode]
    split
    · next schema _ =>
      obtain ⟨e, undecodable⟩ := decode_shapeless shapeless schema .required
      exact ⟨e, by rw [undecodable]; rfl⟩
    · obtain ⟨e, undecodable⟩ := decode_shapeless shapeless .ignored .required
      exact ⟨e, by rw [undecodable]; rfl⟩
  · obtain ⟨e, refused⟩ := ofBytes_shapeless shapeless
    have routed : s.route body = s.reportFrame (.codec e) := by simp only [route, refused]
    obtain ⟨still, idle⟩ := s.silent_reportFrame (.codec e)
    rw [routed]
    exact ⟨e, refused, still, idle, s.outer_reportFrame (.codec e)⟩

theorem refused_null :
    let s : Session := { overStream {} with attached := true }
    let body := octets Value.null.write
    Shapeless body ∧ ∃ e, Rpc.Message.ofBytes body = .error e ∧ (s.route body).session = s ∧
      (s.route body).tasks = [] ∧ (s.route body).events.filter Event.outer = [.transportError (.codec e)] := by
  intro s body
  have shapeless : Shapeless body := by
    intro kind text
    obtain ⟨inner, start⟩ := text.start
    have first : Json.ascii 'n' = kind.opening := (List.cons.inj start).1
    cases kind <;> exact absurd first (by decide)
  exact ⟨shapeless, (refused_of_shapeless s shapeless).2.2⟩

/-! Lists. -/

theorem list_no_object (items : List Value) : ¬ Text .object (octets (Value.array items).write) := by
  intro text
  obtain ⟨inner, start⟩ := text.start
  have bracket := Json.octets_array items []
  have solid : Json.isBlank (Json.ascii '[') = false := by decide
  rw [List.append_nil] at bracket
  rw [bracket, Json.skipBlank_solid solid] at start
  have other : Json.ascii '[' ≠ Json.Open.object.opening := by decide
  exact other (List.cons.inj start).1

theorem route_listed_request (s : Session) {key : RequestId} {method : String} (identified : key.Exact)
    (attached : s.attached = true) :
    s.route (octets (Value.array [key.toValue, .string method]).write) =
      s.handleRequest .wire key method (octets (Value.array [key.toValue, .string method]).write) := by
  simp only [route, Rpc.Message.ofBytes_listed_request identified, attached, if_true]

theorem route_listed_response {t : Session} {c : Connection} {completion : Completion} {key : RequestId}
    {v : Value} (identified : key.Exact) (exact : v.Exact) (fits : v.depth + 1 < Json.nestingLimit)
    (carrier : t.transport = .connection c) (pending : c.pending.lookup key = some completion) :
    t.route (octets (Value.array [key.toValue, .null, v]).write) =
      { session := { t with transport := .connection (c.without key) }
        tasks := [.finish completion (.ok (.ok v))] } :=
  route_response (Rpc.Message.ofBytes_listed_response identified exact fits) carrier pending

/-- Two lists, neither the text of an object: one is a request, the other completes one. -/
theorem lists_taken_for_messages :
    let request := octets (Value.array [.ofInt 7, .string "m"]).write
    let response := octets (Value.array [.ofInt 1, .null, .ofInt 5]).write
    let completion : Completion := ⟨1, .typed .shutdown .value, []⟩
    let t : Session := { overStream {} with transport := .connection { pending := [(.number 1, completion)] } }
    ¬ Text .object request ∧ Rpc.Message.ofBytes request = .ok (.request (.number 7) "m") ∧
      ¬ Text .object response ∧ (t.route response).tasks = [.finish completion (.ok (.ok (.ofInt 5)))] := by
  intro request response completion t
  have five : (Value.ofInt 5).Exact := by
    show Json.Exact 5
    decide
  have routed := @route_listed_response t { pending := [(.number 1, completion)] } completion (.number 1)
    (.ofInt 5) rfl five (by decide) rfl rfl
  exact ⟨list_no_object _, @Rpc.Message.ofBytes_listed_request (.number 7) "m" rfl, list_no_object _,
    congrArg Turn.tasks routed⟩

end Session
end LanguageClient
