import LanguageClient.Text.Visible

/-! Texts in quotation marks, as diagnostics and logs show them. -/

set_option autoImplicit false
namespace LanguageClient.Text

def hexNumeral (n : Nat) : List Char := Nat.toDigits 16 n

/-- One character inside quotation marks: the marks themselves, the backslash
and hidden characters are escaped, all others stand as they are. -/
def quoteChar (c : Char) : List Char :=
  if c = '"' then ['\\', '"']
  else if c = '\\' then ['\\', '\\']
  else if c = '\n' then ['\\', 'n']
  else if c = '\r' then ['\\', 'r']
  else if c = '\t' then ['\\', 't']
  else if c.toNat = 0 then ['\\', '0']
  else if isVisible c then [c]
  else ['\\', 'u', '\x7b'] ++ hexNumeral c.toNat ++ ['\x7d']

def quote (text : String) : String :=
  .ofList ('"' :: text.toList.flatMap quoteChar ++ ['"'])

end LanguageClient.Text
