import LanguageClient.Method
import LanguageClient.Payload
import LanguageClient.Schema.Encode

/-! Messages whose params have the shape that their method demands. -/

set_option autoImplicit false
namespace LanguageClient

open Json (Value)

structure ServerNotification.Message where
  method : ServerNotification
  content : Data

namespace ServerNotification.Message

def decode (method : ServerNotification) (payload : List UInt8) (policy : ParamsPolicy) :
    Except DecodeError Message :=
  (Payload.decode method.params policy payload).map (⟨method, ·⟩)

def params (m : Message) : Value := m.method.params.encode m.content

end ServerNotification.Message

/-- A request of the server; some requests carry nothing. -/
structure ServerRequest.Message where
  method : ServerRequest
  content : Option Data

namespace ServerRequest.Message

/-- Requests that carry nothing are not choosy about what they are sent with. -/
def decode (method : ServerRequest) (payload : List UInt8) : Except DecodeError Message :=
  match method.params? with
  | some schema => (Payload.decode schema .required payload).map fun d => ⟨method, some d⟩
  | none => (Payload.decode .ignored .required payload).map fun _ => ⟨method, none⟩

def params? (m : Message) : Option Value :=
  match m.method.params?, m.content with
  | some schema, some d => some (schema.encode d)
  | _, _ => none

end ServerRequest.Message

def contentOf (schema : Option Schema) (params : Value) : Except Json.Cause (Option Data) :=
  match schema with
  | some schema => (schema.decode params).map some
  | none => .ok none

def paramsOf (schema : Option Schema) (content : Option Data) : Option Value :=
  match schema, content with
  | some schema, some d => some (schema.encode d)
  | _, _ => none

structure ClientRequest.Message where
  method : ClientRequest
  content : Option Data

namespace ClientRequest.Message

def build (method : ClientRequest) (params : Value) : Except Json.Cause Message :=
  (contentOf method.params? params).map (⟨method, ·⟩)

def params? (m : Message) : Option Value := paramsOf m.method.params? m.content

end ClientRequest.Message

structure ClientNotification.Message where
  method : ClientNotification
  content : Option Data

namespace ClientNotification.Message

def build (method : ClientNotification) (params : Value) : Except Json.Cause Message :=
  (contentOf method.params? params).map (⟨method, ·⟩)

def params? (m : Message) : Option Value := paramsOf m.method.params? m.content

end ClientNotification.Message
end LanguageClient
