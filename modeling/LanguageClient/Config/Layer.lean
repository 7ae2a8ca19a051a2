import LanguageClient.Config.Basic
import LanguageClient.Schema.Decode

/-! Layers of settings: what one source says, and what several say together. -/

set_option autoImplicit false
namespace LanguageClient.Config

open Json (Value)

/-- What a source says; a setting that it leaves out is `none`. -/
structure Layer where
  logFilter : Option Value := none
  logFormat : Option Value := none
  traceMessages : Option Value := none
  lenientNotifications : Option Value := none
  deriving Repr

def Layer.ofEntries (entries : List (String × Value)) : Layer where
  logFilter := entries.lookup "log_filter"
  logFormat := entries.lookup "log_format"
  traceMessages := entries.lookup "trace_messages"
  lenientNotifications := entries.lookup "lenient_notifications"

mutual
/-- What a value makes of the one below it: objects unite, member by member, and any other
value hides what is below. -/
def overlay : Value → Value → Value
  | .object below, .object above => .object (overlayMembers below above)
  | _, above => above

def overlayMembers (below : List (String × Value)) : List (String × Value) → List (String × Value)
  | [] => below
  | (name, value) :: rest =>
      let united := match below.lookup name with
        | some hidden => overlay hidden value
        | none => value
      overlayMembers (Json.insertMember name united below) rest
end

/-- What a value for the lenient notifications makes of the items below it: a list adds its
items and null removes all of them; any other value is an item itself. -/
def gather (items : List Value) : Value → List Value
  | .null => []
  | .array more => items ++ more
  | item => items ++ [item]

def combine (layers : List Layer) (setting : Layer → Option Value) (fallback : Value) : Value :=
  (layers.filterMap setting).foldl overlay fallback

def format? (v : Value) : Option LogFormat :=
  (LogFormat.schema.decode v).toOption.bind LogFormat.ofData?

/-- The settings that layers make up together, the last one uppermost. What they make up must
be of the right kinds; what lies hidden may be of any. -/
def ofLayers? (layers : List Layer) : Option Config := do
  let fallback : Config := {}
  let logFilter ← (combine layers (·.logFilter) (.string fallback.logFilter)).string?
  let logFormat ← format? (combine layers (·.logFormat) (.string fallback.logFormat.name))
  let traceMessages ← (combine layers (·.traceMessages) (.boolean fallback.traceMessages)).boolean?
  let lenient ← ((layers.filterMap (·.lenientNotifications)).foldl gather []).mapM Value.string?
  return ⟨logFilter, logFormat, traceMessages, lenient⟩

end LanguageClient.Config
