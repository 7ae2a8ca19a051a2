/-! Editions of the TOML format: what a document may use, and how deep it may go. -/

set_option autoImplicit false
namespace LanguageClient.Toml

structure Edition where
  /-- Whether texts have the escape for the character 27, and the one of two hexadecimal digits. -/
  shortEscapes : Bool
  /-- Whether a table in braces may run over several lines, and end in a comma. -/
  openBraces : Bool
  /-- Whether a time may do without seconds. -/
  optionalSeconds : Bool
  /-- The most names in one key. -/
  names : Nat
  /-- The most arrays and tables in braces inside one another. -/
  nesting : Nat
  deriving DecidableEq, Repr

namespace Edition

def v10 : Edition where
  shortEscapes := false
  openBraces := false
  optionalSeconds := false
  names := 79
  nesting := 79

def v11 : Edition where
  shortEscapes := true
  openBraces := true
  optionalSeconds := true
  names := 80
  nesting := 80

end Edition
end LanguageClient.Toml
