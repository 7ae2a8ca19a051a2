import LanguageClient.Json.Inspect
import LanguageClient.Session.Basic

/-! The wire trace: raw messages in the log while tracing is on, and no other effect. -/

set_option autoImplicit false
namespace LanguageClient.Session

open Json (Value)
open Rpc (Response)

/-- A record for the wire target, if messages are traced. -/
def wire (traced : Bool) (message : String) (fields : List (String × Log.Field)) : List Event :=
  if traced then [logged .info .wire message fields] else []

/-- Whether an attachment traces messages. One that has ended goes on as it was then. -/
def traces (s : Session) (attachment : Nat) : Bool :=
  s.formerTracing.getD attachment s.tracing

def traceInbound (s : Session) (method : String) (payload : List UInt8) : List Event :=
  wire s.tracing "message"
    [("direction", .text "inbound"), ("method", .text method),
      ("payload", .shown (Text.Utf8.decodeLossy payload))]

def traceOutbound (s : Session) (method : String) (params : Option Value) : List Event :=
  wire s.tracing "message"
    [("direction", .text "outbound"), ("method", .text method),
      ("params", .shown (Json.inspectOption params))]

def traceResponse (s : Session) (attachment : Nat) (r : Response) : List Event :=
  wire (s.traces attachment) "response"
    [("direction", .text "outbound"), ("id", .shown r.id.display),
      ("body", .text (.ofList r.write))]

end LanguageClient.Session
