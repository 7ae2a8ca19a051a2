import LanguageClient.Rpc.Basic
import LanguageClient.Schema.Read

/-! Telling the messages of a peer apart, without a look at their params. -/

set_option autoImplicit false
namespace LanguageClient.Rpc

open Json (Value)
open Schema (defaulted)

inductive Message where
  | request (id : RequestId) (method : String)
  | notification (method : String)
  /-- A peer that could not tell which request it answers gives no id. -/
  | response (id : Option RequestId) (outcome : Outcome)

namespace Message

def schema : Schema :=
  .record "RawMessage"
    [defaulted "id" RequestId.schema, defaulted "method" .text, defaulted "result" .value,
      defaulted "error" RpcError.schema]

/-- A method makes a request or a notification; of error and result the error counts. -/
def classify (id : Option RequestId) (method : Option String) (result : Option Value)
    (error : Option RpcError) : Message :=
  match method, id with
  | some method, some id => .request id method
  | some method, none => .notification method
  | none, id =>
      .response id (match error with
        | some e => .error e
        | none => .ok (result.getD .null))

def text? : Data → Option String
  | .text s => some s
  | _ => none

def json? : Data → Option Value
  | .json v => some v
  | _ => none

def ofData : Data → Message
  | .record [id, method, result, error] =>
      classify (RequestId.ofData? id) (text? method) (json? result) (RpcError.ofData? error)
  | _ => classify none none none none

def ofBytes (bytes : List UInt8) : Except Json.Error Message := (schema.read bytes).map ofData

end Message
end LanguageClient.Rpc
