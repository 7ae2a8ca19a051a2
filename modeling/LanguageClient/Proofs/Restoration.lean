import LanguageClient.Message
import LanguageClient.Proofs.Envelope
import LanguageClient.Proofs.Schema.Refilling

/-! The messages of the client are found again in their params.

The params are written from what was read, so they need not be the value that the message was built from. But they
are read to the same, also out of the text of a message that carries them.
-/

set_option autoImplicit false
namespace LanguageClient.Restoration

open Json (Value octets)
open Rpc (RequestId)

/-- The data is decoded from any text of an object that holds the params. -/
structure Carried (schema : Schema) (d : Data) (params : Value) : Prop where
  embedded (policy : ParamsPolicy) (members : List (String × Value)) (proper : (Value.object members).Proper)
    (held : members.lookup "params" = some params) :
    Payload.decode schema policy (Value.object members).encode = .ok d
  requested (policy : ParamsPolicy) (key : RequestId) (identified : key.Exact) (method : String) :
    Payload.decode schema policy (octets (Rpc.writeRequest key method (some params))) = .ok d
  notified (policy : ParamsPolicy) (method : String) :
    Payload.decode schema policy (octets (Rpc.writeNotification method (some params))) = .ok d

/-- The room that there is for params in a message. -/
def paramsRoom : Nat := Json.nestingLimit - 2

def faithful (schema : Schema) : Bool := schema.regular paramsRoom && !schema.accepts .null

section Content

variable {schema : Schema} {d : Data} {v params : Value}

theorem carried_of_decode (read : schema.decode params = .ok d) (exact : params.Exact) (there : params ≠ .null)
    (fits : params.depth + 1 < Json.nestingLimit) : Carried schema d params := by
  have present : Payload.present (some params) = some params := by
    cases params <;> first | rfl | exact absurd rfl there
  have decoded {policy : ParamsPolicy} {text : List UInt8} (found : Payload.params text = .ok (some params)) :
      Payload.decode schema policy text = .ok d := by
    rw [Payload.decode, found]
    exact congrArg (Except.mapError Payload.valueError) read
  have fit : Payload.Fit (some params) := fun v same => Option.some.inj same ▸ ⟨exact, fits⟩
  refine ⟨fun policy members proper held => ?_, fun policy key identified method => ?_, fun policy method => ?_⟩
  · have shallow : Envelope.Shallow members := fun v kept => Option.some.inj (held.symm.trans kept) ▸ fits
    have found := Envelope.params_object proper shallow
    rw [held, present, Option.map_some, exact.reread] at found
    exact decoded found
  · have found := @Payload.params_request _ key method identified fit
    rw [present] at found
    exact decoded found
  · have found := @Payload.params_notification _ method fit
    rw [present] at found
    exact decoded found

theorem restored_of_decode (sound : faithful schema = true) (exact : v.Exact) (read : schema.decode v = .ok d) :
    schema.decode (schema.encode d) = .ok d ∧
      (v.depth + 1 < Json.nestingLimit → Carried schema d (schema.encode d)) := by
  obtain ⟨regular, refuses⟩ := Bool.and_eq_true_iff.mp sound
  -- The value itself may be too deep for a message, so the room is that of the value if there is less in a message.
  have wide : schema.regular (max paramsRoom v.depth) = true :=
    Schema.regular_mono schema (Nat.le_max_left _ _) regular
  have restores := (Schema.restorable_of_regular schema wide).restores exact (Nat.le_max_right _ _) read
  refine ⟨restores.again _ _ _, fun fits => ?_⟩
  have narrow : v.depth ≤ paramsRoom := Nat.le_sub_of_add_le fits
  have shallow : (schema.encode d).depth ≤ paramsRoom := by
    have fits : (schema.encode d).depth ≤ max paramsRoom v.depth := restores.fits _
    rwa [Nat.max_eq_left narrow] at fits
  have there : schema.encode d ≠ .null := restores.ne_null ((Bool.not_eq_true' _).mp refuses) _
  exact carried_of_decode (restores.again _ _ _) (restores.exact _) there (Nat.add_le_of_le_sub (by decide) shallow)

theorem restored_content {demanded : Option Schema} {content : Option Data} (exact : v.Exact)
    (sound : ∀ schema, demanded = some schema → faithful schema = true)
    (built : contentOf demanded v = .ok content) (written : paramsOf demanded content = some params) :
    contentOf demanded params = .ok content ∧ ∃ schema d, demanded = some schema ∧ content = some d ∧
      (v.depth + 1 < Json.nestingLimit → Carried schema d params) := by
  cases demanded with
  | none => cases written
  | some schema =>
    obtain ⟨d, read, rfl⟩ := ok_of_map built
    cases written
    obtain ⟨again, carried⟩ := restored_of_decode (sound schema rfl) exact read
    exact ⟨congrArg (Except.map some) again, schema, d, rfl, rfl, carried⟩

theorem params_eq_none_iff {demanded : Option Schema} {content : Option Data}
    (built : contentOf demanded v = .ok content) : paramsOf demanded content = none ↔ demanded = none := by
  cases demanded with
  | none => exact ⟨fun _ => rfl, fun _ => rfl⟩
  | some schema =>
    obtain ⟨d, -, rfl⟩ := ok_of_map built
    exact ⟨nofun, nofun⟩

end Content

/-! The schemas of the client's params. -/

theorem faithful_of_all {κ : Type} {all : List κ} {params? : κ → Option Schema} {kind : κ} {schema : Schema}
    (each : (all.all fun kind => (params? kind).all faithful) = true) (listed : kind ∈ all)
    (carries : params? kind = some schema) : faithful schema = true := by
  have one := List.all_eq_true.mp each kind listed
  rwa [carries] at one

theorem faithful_request {method : ClientRequest} {schema : Schema} (carries : method.params? = some schema) :
    faithful schema = true :=
  faithful_of_all (by decide +kernel : (ClientRequest.all.all fun method => method.params?.all faithful) = true)
    (by cases method <;> decide) carries

theorem faithful_notification {method : ClientNotification} {schema : Schema}
    (carries : method.params? = some schema) : faithful schema = true :=
  faithful_of_all (by decide +kernel : (ClientNotification.all.all fun method => method.params?.all faithful) = true)
    (by cases method <;> decide) carries

theorem request_params_eq_none_iff {method : ClientRequest} : method.params? = none ↔ method = .shutdown := by
  cases method <;> decide

theorem notification_params_eq_none_iff {method : ClientNotification} : method.params? = none ↔ method = .exit := by
  cases method <;> decide

/-- A message of the client is built again from its own params, and these are its params again. If there was room for
the value that it was built from, its data is decoded from whatever text holds the params. Only shutdown and exit
have no params. -/
theorem built_again_from_params :
    (∀ (method : ClientRequest) (v : Value) (m : ClientRequest.Message), v.Exact →
      ClientRequest.Message.build method v = .ok m → m.method = method ∧ (m.params? = none ↔ method = .shutdown) ∧
        ∀ params, m.params? = some params → ClientRequest.Message.build method params = .ok m ∧
          ∃ schema d, method.params? = some schema ∧ m.content = some d ∧
            (v.depth + 1 < Json.nestingLimit → Carried schema d params)) ∧
    (∀ (method : ClientNotification) (v : Value) (m : ClientNotification.Message), v.Exact →
      ClientNotification.Message.build method v = .ok m → m.method = method ∧ (m.params? = none ↔ method = .exit) ∧
        ∀ params, m.params? = some params → ClientNotification.Message.build method params = .ok m ∧
          ∃ schema d, method.params? = some schema ∧ m.content = some d ∧
            (v.depth + 1 < Json.nestingLimit → Carried schema d params)) := by
  constructor
  · intro method v m exact build
    obtain ⟨content, built, rfl⟩ := ok_of_map build
    refine ⟨rfl, (params_eq_none_iff built).trans request_params_eq_none_iff, fun params written => ?_⟩
    obtain ⟨again, data⟩ := restored_content exact (fun _ => faithful_request) built written
    exact ⟨congrArg (Except.map _) again, data⟩
  · intro method v m exact build
    obtain ⟨content, built, rfl⟩ := ok_of_map build
    refine ⟨rfl, (params_eq_none_iff built).trans notification_params_eq_none_iff, fun params written => ?_⟩
    obtain ⟨again, data⟩ := restored_content exact (fun _ => faithful_notification) built written
    exact ⟨congrArg (Except.map _) again, data⟩

def command : Value := .object [("command", .string "lint"), ("note", .null), ("workDoneToken", .ofInt 7)]

def commandParams : Value :=
  .object [("arguments", .array []), ("command", .string "lint"), ("workDoneToken", .ofInt 7)]

def commandData : Data := .record [.text "lint", .list [], .record [.choice 0 (.integer 7)]]

def cancelled : Value := .object [("id", .ofInt 3)]

theorem command_built_again :
    (command.Exact ∧ command.depth + 1 < Json.nestingLimit ∧
      ClientRequest.Message.build .executeCommand command = .ok ⟨.executeCommand, some commandData⟩ ∧
      ClientRequest.Message.params? ⟨.executeCommand, some commandData⟩ = some commandParams ∧
      ClientRequest.Message.build .executeCommand commandParams = .ok ⟨.executeCommand, some commandData⟩ ∧
      Carried Protocol.executeCommand commandData commandParams ∧
      Payload.decode Protocol.executeCommand .required
        (octets (Rpc.writeRequest (.number 1) "workspace/executeCommand" (some commandParams))) = .ok commandData) ∧
    (cancelled.Exact ∧ cancelled.depth + 1 < Json.nestingLimit ∧
      ClientNotification.Message.build .cancel cancelled = .ok ⟨.cancel, some (.record [.choice 0 (.integer 3)])⟩ ∧
      ClientNotification.Message.params? ⟨.cancel, some (.record [.choice 0 (.integer 3)])⟩ = some cancelled ∧
      Carried Protocol.cancel (.record [.choice 0 (.integer 3)]) cancelled) := by
  have exact : command.Exact := by
    simp +decide [command, Value.Exact, Json.ExactMembers, Value.ofInt, Json.Ordered]
  have other : cancelled.Exact := by
    simp +decide [cancelled, Value.Exact, Json.ExactMembers, Value.ofInt, Json.Ordered]
  constructor
  · obtain ⟨-, -, restored⟩ := built_again_from_params.1 .executeCommand command _ exact rfl
    obtain ⟨again, schema, d, demanded, holds, carried⟩ := restored commandParams rfl
    cases demanded
    cases holds
    have carries := carried (by decide)
    exact ⟨exact, by decide, rfl, rfl, again, carries, carries.requested .required (.number 1) rfl _⟩
  · obtain ⟨-, -, restored⟩ := built_again_from_params.2 .cancel cancelled _ other rfl
    obtain ⟨-, schema, d, demanded, holds, carried⟩ := restored cancelled rfl
    cases demanded
    cases holds
    exact ⟨other, by decide, rfl, rfl, carried (by decide)⟩

end LanguageClient.Restoration
