/-! UTF-8, octet by octet.

One machine reads octets into scalars and broken runs. Strict reading, reading
with replacement characters and the position of the first broken octet are all
views of the list of pieces it yields.
-/

set_option autoImplicit false
namespace LanguageClient.Text.Utf8

def encodeChar (c : Char) : List UInt8 :=
  let n := c.toNat
  if n < 0x80 then [.ofNat n]
  else if n < 0x800 then [.ofNat (0xC0 + n / 64), .ofNat (0x80 + n % 64)]
  else if n < 0x10000 then
    [.ofNat (0xE0 + n / 4096), .ofNat (0x80 + n / 64 % 64), .ofNat (0x80 + n % 64)]
  else
    [.ofNat (0xF0 + n / 262144), .ofNat (0x80 + n / 4096 % 64), .ofNat (0x80 + n / 64 % 64),
      .ofNat (0x80 + n % 64)]

def encode (text : String) : List UInt8 := text.toList.flatMap encodeChar

def width (chars : List Char) : Nat := (chars.flatMap encodeChar).length

/-- Between scalars, or inside one: the bits read, the octets read and still
owed, and the range the next octet must lie in. -/
inductive State where
  | ready
  | inside (bits taken owed low high : Nat)
  deriving DecidableEq, Repr

/-- A scalar, or a longest run of octets that begins one and cannot continue it. -/
inductive Piece where
  | scalar (c : Char)
  | broken (width : Nat)
  deriving DecidableEq, Repr

inductive Step where
  | more (state : State)
  | done (c : Char)
  | refused
  deriving DecidableEq, Repr

def lead (b : Nat) : Step :=
  if b < 0x80 then .done (Char.ofNat b)
  else if b < 0xC2 then .refused
  else if b < 0xE0 then .more (.inside (b - 0xC0) 1 1 0x80 0xBF)
  else if b < 0xF0 then
    .more (.inside (b - 0xE0) 1 2 (if b = 0xE0 then 0xA0 else 0x80) (if b = 0xED then 0x9F else 0xBF))
  else if b < 0xF5 then
    .more (.inside (b - 0xF0) 1 3 (if b = 0xF0 then 0x90 else 0x80) (if b = 0xF4 then 0x8F else 0xBF))
  else .refused

/-- One octet: only the first continuation octet has a narrowed range. -/
def step : State → Nat → Step
  | .ready, b => lead b
  | .inside bits taken owed low high, b =>
      if low ≤ b ∧ b ≤ high then
        if owed ≤ 1 then .done (Char.ofNat (bits * 64 + (b - 0x80)))
        else .more (.inside (bits * 64 + (b - 0x80)) (taken + 1) (owed - 1) 0x80 0xBF)
      else .refused

/-- Reads octets from a state; `found` holds the pieces before, the last first. -/
def scan (found : List Piece) : State → List UInt8 → List Piece
  | .ready, [] => found.reverse
  | .inside _ taken _ _ _, [] => (.broken taken :: found).reverse
  | .ready, b :: rest =>
      match lead b.toNat with
      | .more state => scan found state rest
      | .done c => scan (.scalar c :: found) .ready rest
      | .refused => scan (.broken 1 :: found) .ready rest
  | .inside bits taken owed low high, b :: rest =>
      match step (.inside bits taken owed low high) b.toNat with
      | .more state => scan found state rest
      | .done c => scan (.scalar c :: found) .ready rest
      | .refused =>
          -- The octet that breaks a character off may begin the next one.
          match lead b.toNat with
          | .more state => scan (.broken taken :: found) state rest
          | .done c => scan (.scalar c :: .broken taken :: found) .ready rest
          | .refused => scan (.broken 1 :: .broken taken :: found) .ready rest

def pieces (bytes : List UInt8) : List Piece := scan [] .ready bytes

def Piece.char? : Piece → Option Char
  | .scalar c => some c
  | .broken _ => none

def decode? (bytes : List UInt8) : Option (List Char) := (pieces bytes).mapM Piece.char?

/-- The text with every broken run read as the replacement character. -/
def decodeLossy (bytes : List UInt8) : String :=
  .ofList ((pieces bytes).map fun piece => piece.char?.getD '\uFFFD')

/-- How many octets come before the first broken run. -/
def validWidth : List Piece → Nat
  | .scalar c :: rest => (encodeChar c).length + validWidth rest
  | .broken _ :: _ | [] => 0

end LanguageClient.Text.Utf8
