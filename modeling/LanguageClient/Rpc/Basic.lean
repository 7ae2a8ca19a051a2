import LanguageClient.Json.Inspect
import LanguageClient.Json.Writer
import LanguageClient.Schema.Decode
import LanguageClient.Schema.Encode

/-! The records of JSON-RPC 2.0: ids, errors, and the three kinds of messages. -/

set_option autoImplicit false
namespace LanguageClient.Rpc

open Json (Value)
open Schema (required defaulted)

def version : String := "2.0"

inductive RequestId where
  | number (n : Int)
  | string (s : String)
  deriving DecidableEq, Repr

namespace RequestId

/-- A string id stands between quotation marks, unescaped. -/
def display : RequestId → String
  | number n => toString n
  | string s => "\"" ++ s ++ "\""

def toValue : RequestId → Value
  | number n => .ofInt n
  | string s => .string s

def inspect : RequestId → String
  | number n => "Number(" ++ toString n ++ ")"
  | string s => "String(" ++ Text.quote s ++ ")"

def schema : Schema := .untagged "RequestId" [.integer .signed64, .text]

def ofData? : Data → Option RequestId
  | .choice _ (.integer n) => some (number n)
  | .choice _ (.text s) => some (string s)
  | _ => none

end RequestId

structure RpcError where
  code : Int
  message : String
  data : Option Value
  deriving Repr

namespace RpcError

def parseError : Int := -32700
def invalidRequest : Int := -32600
def methodNotFound : Int := -32601
def invalidParams : Int := -32602
def internalError : Int := -32603
def requestFailed : Int := -32803

def new (code : Int) (message : String) : RpcError := ⟨code, message, none⟩

def members (e : RpcError) : List (String × List Char) :=
  [("code", Json.writeInt e.code), ("message", Json.writeString e.message)]
    ++ match e.data with
      | none => []
      | some v => [("data", v.write)]

def write (e : RpcError) : List Char := Json.writeRecord e.members

def inspect (e : RpcError) : String :=
  "JsonRpcError \x7b code: " ++ toString e.code ++ ", message: " ++ Text.quote e.message
    ++ ", data: " ++ Json.inspectOption e.data ++ " \x7d"

def schema : Schema :=
  .record "JsonRpcError"
    [required "code" (.integer .signed64), required "message" .text, defaulted "data" .value]

def ofData? : Data → Option RpcError
  | .record [.integer code, .text message, .json data] => some ⟨code, message, some data⟩
  | .record [.integer code, .text message, .absent] => some ⟨code, message, none⟩
  | _ => none

end RpcError

abbrev Outcome := Except RpcError Value

structure Response where
  id : RequestId
  outcome : Outcome

namespace Response

def success (id : RequestId) (result : Value) : Response := ⟨id, .ok result⟩

def failure (id : RequestId) (error : RpcError) : Response := ⟨id, .error error⟩

/-- Exactly one of `result` and `error` is written. -/
def write (r : Response) : List Char :=
  Json.writeRecord
    [("jsonrpc", Json.writeString version), ("id", r.id.toValue.write),
      match r.outcome with
        | .ok result => ("result", result.write)
        | .error e => ("error", e.write)]

end Response

def paramsMember : Option Value → List (String × List Char)
  | none => []
  | some v => [("params", v.write)]

def writeRequest (id : RequestId) (method : String) (params : Option Value) : List Char :=
  Json.writeRecord
    ([("jsonrpc", Json.writeString version), ("id", id.toValue.write),
      ("method", Json.writeString method)] ++ paramsMember params)

def writeNotification (method : String) (params : Option Value) : List Char :=
  Json.writeRecord
    ([("jsonrpc", Json.writeString version), ("method", Json.writeString method)]
      ++ paramsMember params)

end LanguageClient.Rpc
