import LanguageClient.Frame.Header

/-! Taking frames off a stream of octets that arrive bit by bit.

`next` goes as far as the octets at hand allow: to the end of a frame, to a fault, to
the end of the stream, or to the point where it needs more octets, from which it can go on.
-/

set_option autoImplicit false
namespace LanguageClient.Frame

inductive Phase where
  /-- Among the headers; `line` holds what has come of the current one, the last octet first. -/
  | header (block : Block) (line : List UInt8)
  /-- In the body; `read` holds what has come of it, the last part first. -/
  | body (missing : Nat) (read : List (List UInt8))
  /-- Passing over a body that is too large. -/
  | drain (declared missing : Nat)

def Phase.start : Phase := .header {} []

inductive Arrival where
  | frame (body : List UInt8)
  /-- A frame that cannot be used; the stream goes on behind it. -/
  | rejected (error : TransportError)
  | failed (error : StreamError)
  | ended
  | starved (phase : Phase)

structure Step where
  notes : List Note
  arrival : Arrival
  rest : List UInt8

def endedInHeaders : StreamError := ⟨.unexpectedEnd, some "connection closed while reading headers"⟩

def endedInBody : StreamError := ⟨.unexpectedEnd, some "failed to fill whole buffer"⟩

def notText : StreamError := ⟨.invalidData, some "stream did not contain valid UTF-8"⟩

def nextBody (missing : Nat) (read : List (List UInt8)) (bytes : List UInt8) (ended : Bool) : Step :=
  let part := bytes.take missing
  if part.length = missing then ⟨[], .frame (part :: read).reverse.flatten, bytes.drop missing⟩
  else if ended then ⟨[], .failed endedInBody, []⟩
  else ⟨[], .starved (.body (missing - part.length) (part :: read)), []⟩

def nextDrain (declared missing : Nat) (bytes : List UInt8) (ended : Bool) : Step :=
  let dropped := min missing bytes.length
  if dropped = missing ∨ ended then
    ⟨[.drained declared (declared - missing + dropped)],
      .rejected (.frameTooLarge declared bodyLimit), bytes.drop missing⟩
  else ⟨[], .starved (.drain declared (missing - dropped)), []⟩

def afterBlock (block : Block) (bytes : List UInt8) (ended : Bool) : Step :=
  match block.announced with
  | .error e => ⟨[], .rejected e, bytes⟩
  | .ok n =>
      if bodyLimit < n then nextDrain n n bytes ended else nextBody n [] bytes ended

def Step.noting (notes : List Note) (step : Step) : Step :=
  { step with notes := notes ++ step.notes }

/-- At the end of the stream what has come of a line counts as one. -/
def endHeader (block : Block) (line : List UInt8) : Step :=
  if line.isEmpty then
    if block.started then ⟨[], .failed endedInHeaders, []⟩ else ⟨[], .ended, []⟩
  else
    match block.take line.reverse with
    | .garbled => ⟨[], .failed notText, []⟩
    | .blank => afterBlock block [] true
    | .header _ notes => ⟨notes, .failed endedInHeaders, []⟩

def nextHeader (ended : Bool) (block : Block) (line : List UInt8) : List UInt8 → Step
  | [] => if ended then endHeader block line else ⟨[], .starved (.header block line), []⟩
  | octet :: rest =>
      if octet = 10 then
        match block.take (octet :: line).reverse with
        | .garbled => ⟨[], .failed notText, rest⟩
        | .blank => afterBlock block rest ended
        | .header block notes => (nextHeader ended block [] rest).noting notes
      else nextHeader ended block (octet :: line) rest

/-- Goes on with a frame; `ended` says that no octets come after these. -/
def next (phase : Phase) (bytes : List UInt8) (ended : Bool) : Step :=
  match phase with
  | .header block line => nextHeader ended block line bytes
  | .body missing read => nextBody missing read bytes ended
  | .drain declared missing => nextDrain declared missing bytes ended

def read (bytes : List UInt8) : Step := next .start bytes true

end LanguageClient.Frame
