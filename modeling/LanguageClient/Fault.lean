import LanguageClient.Rpc.Basic

/-! What can go wrong between a client and its peer. -/

set_option autoImplicit false
namespace LanguageClient

open Rpc (RpcError)

inductive StreamFault where
  | notFound
  | permissionDenied
  | connectionRefused
  | connectionReset
  | connectionAborted
  | notConnected
  | brokenPipe
  | wouldBlock
  | invalidInput
  | invalidData
  | timedOut
  | writeZero
  | interrupted
  | unexpectedEnd
  | other
  deriving DecidableEq, Repr

def StreamFault.describe : StreamFault → String
  | notFound => "entity not found"
  | permissionDenied => "permission denied"
  | connectionRefused => "connection refused"
  | connectionReset => "connection reset"
  | connectionAborted => "connection aborted"
  | notConnected => "not connected"
  | brokenPipe => "broken pipe"
  | wouldBlock => "operation would block"
  | invalidInput => "invalid input parameter"
  | invalidData => "invalid data"
  | timedOut => "timed out"
  | writeZero => "write zero"
  | interrupted => "operation interrupted"
  | unexpectedEnd => "unexpected end of file"
  | other => "other error"

/-- A failure of a byte stream, with words of its own or those of its kind. -/
structure StreamError where
  fault : StreamFault
  detail : Option String
  deriving DecidableEq, Repr

def StreamError.message (e : StreamError) : String := e.detail.getD e.fault.describe

inductive TransportError where
  | stream (error : StreamError)
  | missingContentLength
  | invalidHeader
  | frameTooLarge (length limit : Nat)
  | codec (error : Json.Error)
  | closed
  deriving DecidableEq, Repr

def TransportError.message : TransportError → String
  | stream error => "I/O error: " ++ error.message
  | missingContentLength => "missing Content-Length header"
  | invalidHeader => "invalid header format"
  | frameTooLarge length limit =>
      "frame of " ++ toString length ++ " bytes exceeds the " ++ toString limit ++ " byte limit"
  | codec error => "JSON codec error: " ++ error.message
  | closed => "connection closed"

inductive DecodeError where
  | missingParams
  | undecodable (error : Json.Error)
  deriving DecidableEq, Repr

inductive ExchangeError where
  | unhandledMethod (method : String)
  | handlerUnavailable (method : String)
  | undecodable (error : Json.Error)
  | missingParams
  | requestNotSent (error : TransportError)
  | notificationNotSent (error : TransportError)
  /-- An error object of the peer, or one meant for it. -/
  | rpc (error : RpcError)
  | unencodable (error : Json.Error)
  | responseDropped (method : String)

namespace ExchangeError

def ofDecode : DecodeError → ExchangeError
  | .missingParams => missingParams
  | .undecodable error => undecodable error

def message : ExchangeError → String
  | unhandledMethod method => "unhandled method '" ++ method ++ "'"
  | handlerUnavailable method => "no handler registered for '" ++ method ++ "'"
  | undecodable error => "unable to decode request: " ++ error.message
  | missingParams => "missing expected parameter"
  | requestNotSent error => "unable to send request: " ++ error.message
  | notificationNotSent error => "unable to send notification: " ++ error.message
  | rpc error => "JSON-RPC error " ++ toString error.code ++ ": " ++ error.message
  | unencodable error => "unable to encode response: " ++ error.message
  | responseDropped method => "handler for '" ++ method ++ "' finished without responding"

def code : ExchangeError → Int
  | unhandledMethod _ | handlerUnavailable _ => RpcError.methodNotFound
  | undecodable _ | missingParams => RpcError.invalidParams
  | rpc error => error.code
  | _ => RpcError.internalError

/-- The error object that tells the peer; its own error objects pass unchanged. -/
def toRpc : ExchangeError → RpcError
  | rpc error => error
  | e => .new e.code e.message

end ExchangeError

def DecodeError.message (e : DecodeError) : String := (ExchangeError.ofDecode e).message

end LanguageClient
