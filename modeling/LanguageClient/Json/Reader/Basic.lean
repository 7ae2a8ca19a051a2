import LanguageClient.Json.Error

/-! Reading from the left of a list of octets.

A reading returns what it read and the octets left. A failure carries the octets
left as well: for a fault of the text those after the place at which it was
noticed, and for a value that does not fit those at which the reading stood; such
a failure gets its place from the list or object around it.
-/

set_option autoImplicit false
namespace LanguageClient.Json

structure Failure where
  cause : Cause
  left : List UInt8
  placed : Bool
  deriving DecidableEq, Repr

/-- Noticed after the octets already read. -/
def failAt {α : Type} (cause : Cause) (left : List UInt8) : Except Failure α :=
  .error ⟨cause, left, true⟩

/-- Noticed on looking at the next octet. -/
def failBefore {α : Type} (cause : Cause) (left : List UInt8) : Except Failure α :=
  .error ⟨cause, left.drop 1, true⟩

/-- A value that does not fit, place still unknown. -/
def misfit {α : Type} (cause : Cause) (left : List UInt8) : Except Failure α :=
  .error ⟨cause, left, false⟩

/-- Gives a failure without a place the octets left as its place. -/
def Failure.placeAt (f : Failure) (left : List UInt8) : Failure :=
  if f.placed then f else ⟨f.cause, left, true⟩

def Failure.locate (input : List UInt8) (f : Failure) : Error :=
  ⟨f.cause, if f.placed then some (.after (input.take (input.length - f.left.length))) else none⟩

def isBlank (b : UInt8) : Bool := b == 32 || b == 10 || b == 9 || b == 13

def skipBlank (bytes : List UInt8) : List UInt8 := bytes.dropWhile isBlank

def ascii (c : Char) : UInt8 := .ofNat c.toNat

def isDigit (b : UInt8) : Bool := 48 ≤ b && b ≤ 57

def readWord {α : Type} (value : α) : List Char → List UInt8 → Except Failure (α × List UInt8)
  | [], bytes => .ok (value, bytes)
  | _ :: _, [] => failAt .endInValue []
  | c :: word, b :: bytes =>
      if b = ascii c then readWord value word bytes else failAt .expectedIdent bytes

def finish {α : Type} (value : α) (bytes : List UInt8) : Except Failure α :=
  match skipBlank bytes with
  | [] => .ok value
  | rest => failBefore .trailingCharacters rest

def readAll {α : Type} (reading : List UInt8 → Except Failure (α × List UInt8)) (input : List UInt8) : Except Error α :=
  match reading input with
  | .error f => .error (f.locate input)
  | .ok (value, rest) =>
      match finish value rest with
      | .ok value => .ok value
      | .error f => .error (f.locate input)

def readColon (bytes : List UInt8) : Except Failure (List UInt8) :=
  match skipBlank bytes with
  | [] => failAt .endInObject []
  | b :: rest => if b = ascii ':' then .ok rest else failBefore .expectedColon (b :: rest)

end LanguageClient.Json
