import LanguageClient.Double.Shortest
import LanguageClient.Json.Value
import LanguageClient.Text.Quoted

/-! JSON values as logs show them: every value behind the name of its kind. -/

set_option autoImplicit false
namespace LanguageClient.Json

def Number.text : Number → String
  | .integer n => toString n
  | .double d => .ofList d.text

mutual
def Value.inspect : Value → String
  | .null => "Null"
  | .boolean b => "Bool(" ++ toString b ++ ")"
  | .number n => "Number(" ++ n.text ++ ")"
  | .string s => "String(" ++ Text.quote s ++ ")"
  | .array items => "Array [" ++ ", ".intercalate (inspectItems items) ++ "]"
  | .object members => "Object \x7b" ++ ", ".intercalate (inspectMembers members) ++ "\x7d"

def inspectItems : List Value → List String
  | [] => []
  | item :: rest => item.inspect :: inspectItems rest

def inspectMembers : List (String × Value) → List String
  | [] => []
  | (name, value) :: rest =>
      (Text.quote name ++ ": " ++ value.inspect) :: inspectMembers rest
end

def inspectOption : Option Value → String
  | none => "None"
  | some v => "Some(" ++ v.inspect ++ ")"

end LanguageClient.Json
