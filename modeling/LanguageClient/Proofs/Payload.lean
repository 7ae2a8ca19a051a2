import LanguageClient.Payload
import LanguageClient.Proofs.Rpc.Message

/-! The params of a message are found again in its text. -/

set_option autoImplicit false
namespace LanguageClient.Payload

open Json (Value octets)
open Rpc (RequestId)
open Schema (Takes given)

/-- Params of null are the same as no params. -/
def present : Option Value → Option Value
  | some .null => none
  | params => params

def envelopeData (params : Option Value) : Data :=
  .record [match params with
    | none => .absent
    | some v => given v]

theorem paramsOf_envelopeData (params : Option Value) : paramsOf (envelopeData params) = present params := by
  obtain _ | v := params
  · rfl
  · cases v <;> rfl

/-- The params of a message can be read: they stay exact, and there is room for their nesting. -/
def Fit (params : Option Value) : Prop :=
  ∀ v, params = some v → v.Exact ∧ v.depth + 1 < Json.nestingLimit

variable {params : Option Value}

def readers : List (String × (List UInt8 → Except Json.Failure (Data × List UInt8))) :=
  Schema.fieldReaders [Schema.defaulted "params" .value] (Json.nestingLimit - 1)

def foundParams (params : Option Value) : List (String × Data) :=
  (params.map fun v => ("params", given v)).toList

theorem takes_paramsMember (fit : Fit params) :
    Takes readers [] (Rpc.paramsMember params) (foundParams params) := by
  cases params with
  | none => exact .done
  | some v =>
    obtain ⟨exact, fits⟩ := fit v rfl
    exact .taken rfl rfl (Schema.reads_given exact (Nat.lt_sub_of_add_lt fits)) .done

theorem params_of_takes {members : List (String × List Char)} (some : members ≠ [])
    (takes : Takes readers [] members (foundParams params)) :
    Payload.params (octets (Json.writeRecord members)) = .ok (present params) := by
  have read : envelope.read (octets (Json.writeRecord members)) = .ok (envelopeData params) :=
    Schema.read_of_reads (Schema.readWith_record (by decide) some takes (by cases params <;> rfl))
  rw [Payload.params, read]
  exact congrArg Except.ok (paramsOf_envelopeData params)

theorem params_request {key : RequestId} {method : String} (identified : key.Exact) (fit : Fit params) :
    Payload.params (octets (Rpc.writeRequest key method params)) = .ok (present params) :=
  params_of_takes (List.cons_ne_nil _ _) (.passed rfl (Schema.passed_string _)
    (.passed rfl (Schema.passed_value (RequestId.exact_toValue identified))
      (.passed rfl (Schema.passed_string _) (takes_paramsMember fit))))

theorem params_notification {method : String} (fit : Fit params) :
    Payload.params (octets (Rpc.writeNotification method params)) = .ok (present params) :=
  params_of_takes (List.cons_ne_nil _ _) (.passed rfl (Schema.passed_string _)
    (.passed rfl (Schema.passed_string _) (takes_paramsMember fit)))

end LanguageClient.Payload
