/-! Texts taken apart at separators. -/

set_option autoImplicit false
namespace LanguageClient.Text

def splitOn (separator : Char) (text : String) : List String :=
  (text.toList.splitOn separator).map .ofList

/-- The parts between pairs of a character, which are found from the left; `part` holds what has
been passed of the part at hand, the last character first. -/
def splitPairs (separator : Char) (part : List Char) : List Char → List (List Char)
  | [] => [part.reverse]
  | [c] => [(c :: part).reverse]
  | c :: d :: rest =>
      if c = separator ∧ d = separator then part.reverse :: splitPairs separator [] rest
      else splitPairs separator (c :: part) (d :: rest)

end LanguageClient.Text
