import LanguageClient.Json.Reader.Basic

/-! Strings: the octets between quotation marks, their escapes and their text. -/

set_option autoImplicit false
namespace LanguageClient.Json

def hexValue? (b : UInt8) : Option Nat :=
  let n := b.toNat
  if 48 ≤ n ∧ n ≤ 57 then some (n - 48)
  else if 65 ≤ n ∧ n ≤ 70 then some (n - 55)
  else if 97 ≤ n ∧ n ≤ 102 then some (n - 87)
  else none

/-- Four hexadecimal digits; they are taken together before any is looked at. -/
def readHex : List UInt8 → Except Failure (Nat × List UInt8)
  | a :: b :: c :: d :: rest =>
      match hexValue? a, hexValue? b, hexValue? c, hexValue? d with
      | some a, some b, some c, some d => .ok (((a * 16 + b) * 16 + c) * 16 + d, rest)
      | _, _, _, _ => failAt .invalidEscape rest
  | _ => failAt .endInString []

def readLowSurrogate (high : Nat) : List UInt8 → Except Failure (Nat × List UInt8)
  | [] => failAt .endInString []
  | [b] => if b = ascii '\\' then failAt .endInString [] else failAt .unfinishedSurrogate []
  | b :: c :: rest =>
      if b = ascii '\\' then
        if c = ascii 'u' then do
          let (low, rest) ← readHex rest
          if 0xDC00 ≤ low ∧ low ≤ 0xDFFF then
            .ok ((high - 0xD800) * 1024 + (low - 0xDC00) + 0x10000, rest)
          else failAt .loneSurrogate rest
        else failAt .unfinishedSurrogate rest
      else failAt .unfinishedSurrogate (c :: rest)

def readCodePoint (bytes : List UInt8) : Except Failure (Nat × List UInt8) := do
  let (unit, rest) ← readHex bytes
  if 0xDC00 ≤ unit ∧ unit ≤ 0xDFFF then failAt .loneSurrogate rest
  else if 0xD800 ≤ unit ∧ unit ≤ 0xDBFF then readLowSurrogate unit rest
  else .ok (unit, rest)

def simpleEscape? (b : UInt8) : Option Char :=
  if b = ascii '"' then some '"'
  else if b = ascii '\\' then some '\\'
  else if b = ascii '/' then some '/'
  else if b = ascii 'b' then some '\x08'
  else if b = ascii 'f' then some '\x0c'
  else if b = ascii 'n' then some '\n'
  else if b = ascii 'r' then some '\r'
  else if b = ascii 't' then some '\t'
  else none

def readEscape : List UInt8 → Except Failure (Char × List UInt8)
  | [] => failAt .endInString []
  | b :: rest =>
      match simpleEscape? b with
      | some c => .ok (c, rest)
      | none =>
          if b = ascii 'u' then do
            let (n, rest) ← readCodePoint rest
            .ok (Char.ofNat n, rest)
          else failAt .invalidEscape rest

/-- The octets of a string up to its closing mark, escapes replaced; `read` holds
those already read, the last first. -/
def readOctets : Nat → List UInt8 → List UInt8 → Except Failure (List UInt8 × List UInt8)
  | fuel + 1, read, b :: rest =>
      if b = ascii '"' then .ok (read.reverse, rest)
      else if b = ascii '\\' then do
        let (c, rest) ← readEscape rest
        readOctets fuel ((Text.Utf8.encodeChar c).reverse ++ read) rest
      else if b < 32 then failAt .controlCharacter rest
      else readOctets fuel (b :: read) rest
  | _, _, _ => failAt .endInString []

/-- A string whose opening mark is read. Octets that are no UTF-8 are noticed once the
closing mark is found. Their place is counted back from there over the octets from the
first broken one on, an escape counting as many as its character has. -/
def readString (bytes : List UInt8) : Except Failure (String × List UInt8) := do
  let (octets, rest) ← readOctets bytes.length [] bytes
  match Text.Utf8.decode? octets with
  | some chars => .ok (.ofList chars, rest)
  | none =>
      let broken := octets.length - Text.Utf8.validWidth (Text.Utf8.pieces octets)
      failAt .invalidCodePoint (bytes.drop (bytes.length - rest.length - broken))

def skipString : Nat → List UInt8 → Except Failure (List UInt8)
  | fuel + 1, b :: rest =>
      if b = ascii '"' then .ok rest
      else if b = ascii '\\' then
        match rest with
        | [] => failAt .endInString []
        | c :: more =>
            if (simpleEscape? c).isSome then skipString fuel more
            else if c = ascii 'u' then do
              let (_, more) ← readHex more
              skipString fuel more
            else failAt .invalidEscape more
      else if b < 32 then failAt .controlCharacter (b :: rest)
      else skipString fuel rest
  | _, _ => failAt .endInString []

end LanguageClient.Json
