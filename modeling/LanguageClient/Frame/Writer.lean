import LanguageClient.Frame.Header

/-! Writing frames through a buffer to a sink that may take part of what it is
offered, or refuse.

Octets that a failed write leaves in the buffer go out before those of the next
frame. A body as large as the buffer is handed to the sink directly.
-/

set_option autoImplicit false
namespace LanguageClient.Frame

inductive Reaction where
  | accept (most : Nat)
  | refuse (error : StreamError)
  deriving DecidableEq, Repr

/-- A sink: its next reactions, and whether it refuses once they are used up. -/
structure Sink where
  reactions : List Reaction := []
  failing : Option StreamError := none
  /-- What it has taken since it was last flushed. -/
  taken : List UInt8 := []
  deriving Repr

/-- What became of an offer: the reactions left, the octets taken and those not. -/
structure Offer where
  reactions : List Reaction
  taken : List UInt8
  left : List UInt8
  outcome : Except StreamError Unit

def stalled (detail : String) : StreamError := ⟨.writeZero, some detail⟩

/-- Offers octets until all are taken or one offer fails; an interruption is no failure. -/
def offer (failing : Option StreamError) (detail : String) : List Reaction → List UInt8 → Offer
  | reactions, [] => ⟨reactions, [], [], .ok ()⟩
  | [], bytes =>
      match failing with
      | none => ⟨[], bytes, [], .ok ()⟩
      | some error => ⟨[], [], bytes, .error error⟩
  | .accept most :: reactions, bytes =>
      -- A sink that takes nothing of some octets would be offered them for ever.
      if most = 0 then ⟨reactions, [], bytes, .error (stalled detail)⟩
      else
        let more := offer failing detail reactions (bytes.drop most)
        { more with taken := bytes.take most ++ more.taken }
  | .refuse error :: reactions, bytes =>
      if error.fault = .interrupted then offer failing detail reactions bytes
      else ⟨reactions, [], bytes, .error error⟩

structure Writer where
  buffer : List UInt8 := []
  sink : Sink := {}
  deriving Repr

def bufferSize : Nat := 8192

abbrev Writing := Writer × Except StreamError Unit

def Sink.after (sink : Sink) (o : Offer) : Sink :=
  { sink with reactions := o.reactions, taken := sink.taken ++ o.taken }

namespace Writer

def drain (w : Writer) : Writing :=
  let o := offer w.sink.failing "failed to write the buffered data" w.sink.reactions w.buffer
  (⟨o.left, w.sink.after o⟩, o.outcome)

def pass (w : Writer) (bytes : List UInt8) : Writing :=
  let o := offer w.sink.failing "failed to write whole buffer" w.sink.reactions bytes
  (⟨w.buffer, w.sink.after o⟩, o.outcome)

def put (w : Writer) (bytes : List UInt8) : Writing :=
  if w.buffer.length + bytes.length < bufferSize then
    ({ w with buffer := w.buffer ++ bytes }, .ok ())
  else
    let (w, outcome) := if w.buffer.length + bytes.length ≤ bufferSize then (w, .ok ()) else w.drain
    match outcome with
    | .error e => (w, .error e)
    | .ok () =>
        if bufferSize ≤ bytes.length then w.pass bytes
        else ({ w with buffer := w.buffer ++ bytes }, .ok ())

def flush (w : Writer) : Writing :=
  match w.drain with
  | (w, .error e) => (w, .error e)
  | (w, .ok ()) =>
      match w.sink.reactions, w.sink.failing with
      | .refuse e :: rest, _ => ({ w with sink := { w.sink with reactions := rest } }, .error e)
      | .accept _ :: rest, _ => ({ w with sink := { w.sink with reactions := rest } }, .ok ())
      | [], some e => (w, .error e)
      | [], none => (w, .ok ())

/-- The header of a frame, its body, and a flush; the first failure ends it. -/
def frame (w : Writer) (body : List UInt8) : Writing :=
  let header := Text.Utf8.encode ("Content-Length: " ++ toString body.length ++ "\r\n\r\n")
  match w.put header with
  | (w, .error e) => (w, .error e)
  | (w, .ok ()) =>
      match w.put body with
      | (w, .error e) => (w, .error e)
      | (w, .ok ()) => w.flush

/-- The octets taken since the last flush, and a writer that counts them anew. -/
def collect (w : Writer) : List UInt8 × Writer :=
  (w.sink.taken, { w with sink := { w.sink with taken := [] } })

end Writer
end LanguageClient.Frame
