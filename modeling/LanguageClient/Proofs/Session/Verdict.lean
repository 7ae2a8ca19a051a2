import LanguageClient.Proofs.Method
import LanguageClient.Proofs.Session.Answer
import LanguageClient.Proofs.Session.Handlers
import LanguageClient.Proofs.Session.Sending
import Mathlib

/-! How a message is decided on: by its method, then by who is there, then by its params.

A method that is none of its direction is refused, whoever is there. Without a handler a message is
refused, whatever its params are. One with params that fit is handed over, to the handler there is and
once, and from then on only what becomes of the reply of a handler answers it.
-/

set_option autoImplicit false
namespace LanguageClient

open Json (Value)
open Rpc (RequestId RpcError Response Outcome)

inductive Answer where
  | response (r : Response)
  | acknowledgement (outcome : Except ExchangeError Unit)

namespace Event

def answer? : Event → Option (Nat × Answer)
  | @response number r => some (number, .response r)
  | @acknowledged number outcome => some (number, .acknowledgement outcome)
  | _ => none

end Event

def Incoming.refusal (x : Incoming) (e : ExchangeError) : Answer :=
  match x.id with
  | some id => .response (.failure id e.toRpc)
  | none => .acknowledgement (.error e)

namespace Session

section Neutral

variable {s : Session}

end Neutral

/-! Answers in a step that takes no message. -/

def Settling (number : Option Nat) (events : List Event) : Prop :=
  ∀ event ∈ events, event.call? = none ∧ ∀ other answer, event.answer? = some (other, answer) → number = some other

section Settling

variable {s : Session} {number : Option Nat} {events more : List Event}

theorem Settling.append (first : Settling number events) (second : Settling number more) :
    Settling number (events ++ more) := by
  intro event member
  rcases List.mem_append.mp member with before | behind
  · exact first event before
  · exact second event behind

end Settling

/-! A message that is taken in. -/

section Incoming

variable {s : Session} {m : Moment} {x : Incoming}

end Incoming

/-! Courses. -/

section Course

variable {first t : Session} {ms : List Moment} {rest : List Task}

def texted (member : String) (v : Value) : List UInt8 :=
  Json.octets (Json.writeRecord [("params", (Value.object [(member, v)]).write)])

def fitting : List Task :=
  [.perform (.request (.number 7) "window/workDoneProgress/create" (texted "token" (.string "a"))),
    .perform (.notify "$/logTrace" (texted "message" (.string "b")))]

end Course

end Session
end LanguageClient
