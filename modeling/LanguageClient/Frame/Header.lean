import LanguageClient.Fault
import LanguageClient.Text.Blank
import LanguageClient.Text.Numeral

/-! Header blocks: the lines before a body, the last of them blank.

Only `Content-Length:` matters. It is found anywhere in a line, so that the unread
body of a rejected block may stand before it.
-/

set_option autoImplicit false
namespace LanguageClient.Frame

def bodyLimit : Nat := 64 * 1024 * 1024

def lengthName : List Char := "Content-Length:".toList

def encode (body : List UInt8) : List UInt8 :=
  Text.Utf8.encode ("Content-Length: " ++ toString body.length ++ "\r\n\r\n") ++ body

inductive Note where
  /-- The header stood behind that many octets. -/
  | resynchronised (skipped : Nat)
  | drained (declared skipped : Nat)
  deriving DecidableEq, Repr

/-- What the lines of a block said so far: the last length, and whether any was no number. -/
structure Block where
  started : Bool := false
  length : Option Nat := none
  invalid : Bool := false
  deriving DecidableEq, Repr

/-- The characters before a word and those after it, at its first occurrence; `before`
holds those already passed, the last first. -/
def splitAtWord (word before : List Char) : List Char → Option (List Char × List Char)
  | [] => none
  | c :: rest =>
      if word.isPrefixOf (c :: rest) then some (before.reverse, (c :: rest).drop word.length)
      else splitAtWord word (c :: before) rest

inductive Line where
  | garbled
  | blank
  | header (block : Block) (notes : List Note)

def Block.take (block : Block) (line : List UInt8) : Line :=
  match Text.Utf8.decode? line with
  | none => .garbled
  | some chars =>
      let trimmed := Text.trimChars chars
      if trimmed.isEmpty then .blank
      else
        match splitAtWord lengthName [] trimmed with
        | none => .header { block with started := true } []
        | some (before, after) =>
            -- The name may stand anywhere on the line; what stands before it is passed over.
            let skipped := Text.Utf8.width before
            let notes := if 0 < skipped then [.resynchronised skipped] else []
            match Text.unsigned64? (Text.trimChars after) with
            | some n => .header { block with started := true, length := some n } notes
            | none => .header { block with started := true, invalid := true } notes

def Block.announced (block : Block) : Except TransportError Nat :=
  if block.invalid then .error .invalidHeader
  else match block.length with
    | some n => .ok n
    | none => .error .missingContentLength

end LanguageClient.Frame
