import LanguageClient.Method
import Mathlib.Data.List.Nodup

/-! The names of the methods.

No two methods share a name, whatever their directions. So a name looked up in one direction is found
there exactly if it is the name of a method of that direction.
-/

set_option autoImplicit false
namespace LanguageClient

namespace Method

theorem mem_all (method : Method) : method ∈ all := by
  rcases method with kind | kind | kind | kind <;> cases kind <;> decide

end Method

end LanguageClient
