import LanguageClient.Json.Writer
import LanguageClient.Schema.Encode
import LanguageClient.Schema.Read
import LanguageClient.Text.Blank
import LanguageClient.Text.Letter

/-! The settings of a client. -/

set_option autoImplicit false
namespace LanguageClient

open Schema (required)

inductive LogFormat where
  | json
  | compact
  deriving DecidableEq, Repr

namespace LogFormat

def all : List LogFormat := [json, compact]

def name : LogFormat → String
  | json => "json"
  | compact => "compact"

def ofText? (text : String) : Option LogFormat := all.find? (·.name == Text.lowerAscii text)

def schema : Schema := .variant (all.map name)

def ofData? : Data → Option LogFormat
  | .choice index _ => all[index]?
  | _ => none

end LogFormat

inductive ParamsPolicy where
  | required
  | defaultWhenAbsent
  deriving DecidableEq, Repr

namespace ParamsPolicy

def all : List ParamsPolicy := [required, defaultWhenAbsent]

def name : ParamsPolicy → String
  | required => "required"
  | defaultWhenAbsent => "default_when_absent"

def ofText? (text : String) : Option ParamsPolicy := all.find? (·.name == Text.lowerAscii text)

def allowsAbsent : ParamsPolicy → Bool
  | required => false
  | defaultWhenAbsent => true

def schema : Schema := .variant (all.map name)

def ofData? : Data → Option ParamsPolicy
  | .choice index _ => all[index]?
  | _ => none

end ParamsPolicy

structure Config where
  logFilter : String := "info"
  logFormat : LogFormat := .json
  traceMessages : Bool := false
  lenientNotifications : List String := []
  deriving DecidableEq, Repr

namespace Config

/-- A listed method may leave its params out; blanks around names do not count. -/
def policyFor (config : Config) (method : String) : ParamsPolicy :=
  if config.lenientNotifications.any fun entry => Text.trim entry == Text.trim method then
    .defaultWhenAbsent
  else .required

def schema : Schema :=
  .record "Config"
    [required "log_filter" .text, required "log_format" LogFormat.schema,
      required "trace_messages" .boolean,
      ⟨"lenient_notifications", .list .text, .default (.list []), false⟩]

def text? : Data → Option String
  | .text s => some s
  | _ => none

def ofData? : Data → Option Config
  | .record [.text logFilter, logFormat, .boolean traceMessages, .list lenient] => do
      let logFormat ← LogFormat.ofData? logFormat
      let lenient ← lenient.mapM text?
      some ⟨logFilter, logFormat, traceMessages, lenient⟩
  | _ => none

def write (config : Config) : List Char :=
  Json.writeRecord
    [("log_filter", Json.writeString config.logFilter),
      ("log_format", Json.writeString config.logFormat.name),
      ("trace_messages", (Json.Value.boolean config.traceMessages).write),
      ("lenient_notifications",
        (Json.Value.array (config.lenientNotifications.map .string)).write)]

end Config
end LanguageClient
