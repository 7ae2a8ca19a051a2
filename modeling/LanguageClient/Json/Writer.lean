import LanguageClient.Double.Shortest
import LanguageClient.Json.Value
import LanguageClient.Text.Utf8

/-! The one text of a JSON value: no blanks, and escapes only where the grammar
demands them. -/

set_option autoImplicit false
namespace LanguageClient.Json

def hexDigit (n : Nat) : Char := Nat.digitChar n

def writeChar (c : Char) : List Char :=
  if c = '"' then ['\\', '"']
  else if c = '\\' then ['\\', '\\']
  else if c = '\x08' then ['\\', 'b']
  else if c = '\x0c' then ['\\', 'f']
  else if c = '\n' then ['\\', 'n']
  else if c = '\r' then ['\\', 'r']
  else if c = '\t' then ['\\', 't']
  else if c.toNat < 0x20 then
    ['\\', 'u', '0', '0', hexDigit (c.toNat / 16), hexDigit (c.toNat % 16)]
  else [c]

def writeString (s : String) : List Char := '"' :: s.toList.flatMap writeChar ++ ['"']

def writeInt (n : Int) : List Char :=
  if n < 0 then '-' :: Nat.toDigits 10 n.natAbs else Nat.toDigits 10 n.natAbs

def Number.write : Number → List Char
  | .integer n => writeInt n
  | .double d => d.text

def writeRecord (members : List (String × List Char)) : List Char :=
  '\x7b' :: (List.intercalate [','] (members.map fun (name, text) => writeString name ++ ':' :: text))
    ++ ['\x7d']

mutual
def Value.write : Value → List Char
  | .null => ['n', 'u', 'l', 'l']
  | .boolean true => ['t', 'r', 'u', 'e']
  | .boolean false => ['f', 'a', 'l', 's', 'e']
  | .number n => n.write
  | .string s => writeString s
  | .array items => '[' :: writeItems items ++ [']']
  | .object members => '\x7b' :: writeMembers members ++ ['\x7d']

def writeItems : List Value → List Char
  | [] => []
  | [item] => item.write
  | item :: rest => item.write ++ ',' :: writeItems rest

def writeMembers : List (String × Value) → List Char
  | [] => []
  | [(name, value)] => writeString name ++ ':' :: value.write
  | (name, value) :: rest => writeString name ++ ':' :: value.write ++ ',' :: writeMembers rest
end

def Value.text (v : Value) : String := .ofList v.write

def octets (text : List Char) : List UInt8 := text.flatMap Text.Utf8.encodeChar

def Value.encode (v : Value) : List UInt8 := octets v.write

end LanguageClient.Json
