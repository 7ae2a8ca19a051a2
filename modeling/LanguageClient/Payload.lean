import LanguageClient.Config.Basic
import LanguageClient.Fault

/-! The params of a message, taken out of its text and read by their schema.

Absent and null params are the same. They do for a schema that takes null, and under
a lenient policy for one that takes an object without members.
-/

set_option autoImplicit false
namespace LanguageClient.Payload

open Json (Value)
open Schema (defaulted)

def envelope : Schema := .record "ParamsEnvelope" [defaulted "params" .value]

def paramsOf : Data → Option Value
  | .record [.json params] => some params
  | _ => none

def params (payload : List UInt8) : Except Json.Error (Option Value) :=
  (envelope.read payload).map paramsOf

def valueError (cause : Json.Cause) : DecodeError := .undecodable ⟨cause, none⟩

def decodeAbsent (schema : Schema) (policy : ParamsPolicy) : Except DecodeError Data :=
  match schema.decode .null with
  | .ok d => .ok d
  | .error _ =>
      if policy.allowsAbsent then (schema.decode (.object [])).mapError valueError
      else .error .missingParams

def decodeParams (schema : Schema) (policy : ParamsPolicy) : Option Value → Except DecodeError Data
  | some v => (schema.decode v).mapError valueError
  | none => decodeAbsent schema policy

def decode (schema : Schema) (policy : ParamsPolicy) (payload : List UInt8) :
    Except DecodeError Data :=
  match params payload with
  | .ok found => decodeParams schema policy found
  | .error e => .error (.undecodable e)

end LanguageClient.Payload
