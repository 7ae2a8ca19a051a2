/-! Log records: who speaks, how urgently, and about what. -/

set_option autoImplicit false
namespace LanguageClient.Log

inductive Level where
  | trace
  | debug
  | info
  | warn
  | error
  deriving DecidableEq, Repr

def Level.name : Level → String
  | trace => "TRACE"
  | debug => "DEBUG"
  | info => "INFO"
  | warn => "WARN"
  | error => "ERROR"

inductive Target where
  | dispatch
  | outbound
  | wire
  | transport
  deriving DecidableEq, Repr

def Target.name : Target → String
  | dispatch => "courier_lsp::dispatch"
  | outbound => "courier_lsp::outbound"
  | wire => "courier_lsp::wire"
  | transport => "courier_lsp::transport"

inductive Field where
  | text (s : String)
  | integer (n : Int)
  | shown (s : String)
  deriving DecidableEq, Repr

structure Record where
  level : Level
  target : Target
  message : String
  fields : List (String × Field)
  deriving DecidableEq, Repr

/-- Where an event comes from, how urgent it is and how its fields are called. This much is
known before any value is. -/
structure Site where
  level : Level
  target : String
  fields : List String
  deriving DecidableEq, Repr

/-- A message is a field like any other. -/
def Record.site (r : Record) : Site := ⟨r.level, r.target.name, "message" :: r.fields.map Prod.fst⟩

end LanguageClient.Log
