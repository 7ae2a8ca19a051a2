import LanguageClient.Json.Value
import LanguageClient.Toml.Table

/-! TOML values as JSON values. A number without a value is null, a time an object. -/

set_option autoImplicit false
namespace LanguageClient.Toml

mutual
def Value.toJson : Value → Json.Value
  | .string s => .string s
  | .boolean b => .boolean b
  | .integer n => .ofInt n
  | .float (some d) => .ofDouble d
  | .float none => .null
  | .time text => .object [("time", .string text)]
  | .array items => .array (itemsToJson items)
  | .table _ entries => .ofMembers (entriesToJson entries)
  | .tables elements => .array (tablesToJson elements)

def itemsToJson : List Value → List Json.Value
  | [] => []
  | item :: rest => item.toJson :: itemsToJson rest

def entriesToJson : List (String × Value) → List (String × Json.Value)
  | [] => []
  | (name, value) :: rest => (name, value.toJson) :: entriesToJson rest

def tablesToJson : List (List (String × Value)) → List Json.Value
  | [] => []
  | entries :: rest => .ofMembers (entriesToJson entries) :: tablesToJson rest
end

end LanguageClient.Toml
