import LanguageClient.Config.Layer

/-! Settings from the command line. -/

set_option autoImplicit false
namespace LanguageClient.Config

inductive Switch where
  | logFilter
  | logFormat
  | traceMessages
  | lenientNotifications
  | configPath
  | help
  deriving DecidableEq, Repr

namespace Switch

def all : List Switch := [logFilter, logFormat, traceMessages, lenientNotifications, configPath, help]

def long : Switch → String
  | logFilter => "log-filter"
  | logFormat => "log-format"
  | traceMessages => "trace-messages"
  | lenientNotifications => "lenient-notifications"
  | configPath => "config-path"
  | help => "help"

def short? : Switch → Option Char
  | logFilter => some 'l'
  | logFormat => some 'L'
  | traceMessages => some 't'
  | lenientNotifications => some 'e'
  | configPath => none
  | help => some 'h'

def takesValue : Switch → Bool
  | traceMessages | help => false
  | _ => true

def ofLong? (name : String) : Option Switch := all.find? (·.long == name)

def ofShort? (c : Char) : Option Switch := all.find? (·.short? == some c)

end Switch

inductive ArgumentFault where
  | missingValue
  | repeated
  | unknown
  | badValue
  | unneededValue
  | help
  deriving DecidableEq, Repr

structure Arguments where
  logFilter : Option String := none
  logFormat : Option LogFormat := none
  traceMessages : Bool := false
  lenientNotifications : List String := []
  configPath : Option String := none
  deriving DecidableEq, Repr

namespace Arguments

/-- Takes a switch with its value. A switch that was given before is refused, the list of
notifications apart; then its value is looked at. -/
def set (a : Arguments) (switch : Switch) (value : String) : Except ArgumentFault Arguments :=
  match switch with
  | .logFilter =>
      if a.logFilter.isSome then .error .repeated else .ok { a with logFilter := some value }
  | .logFormat =>
      if a.logFormat.isSome then .error .repeated
      else match LogFormat.ofText? value with
        | some format => .ok { a with logFormat := some format }
        | none => .error .badValue
  | .lenientNotifications =>
      -- The one option that may be given again.
      .ok { a with lenientNotifications := a.lenientNotifications ++ [value] }
  | .configPath =>
      if a.configPath.isSome then .error .repeated
      else if value.isEmpty then .error .missingValue
      else .ok { a with configPath := some value }
  | .traceMessages =>
      if a.traceMessages then .error .repeated else .ok { a with traceMessages := true }
  | .help => .error .help

abbrev Waiting := Option (Switch × Option String)

def settle (a : Arguments) : Waiting → Except ArgumentFault Arguments
  | none => .ok a
  | some (_, none) => .error .missingValue
  | some (switch, some value) => a.set switch value

def take (a : Arguments) (waiting : Waiting) (switch : Switch) (value : String) :
    Except ArgumentFault Arguments := do
  (← a.settle waiting).set switch value

/-- The letters behind a single dash. What follows a switch that takes a value is its value. -/
def readShort (a : Arguments) (waiting : Waiting) :
    List Char → Except ArgumentFault (Arguments × Waiting)
  | [] => .ok (a, waiting)
  | c :: rest =>
      match Switch.ofShort? c with
      | none => .error .unknown
      | some switch =>
          if switch.takesValue then
            match rest with
            | [] => do return (← a.settle waiting, some (switch, none))
            | '=' :: value => do return (← a.take waiting switch (.ofList value), none)
            | value => do return (← a.take waiting switch (.ofList value), none)
          else do
            let a ← a.take waiting switch ""
            a.readShort none rest

def readLong (a : Arguments) (waiting : Waiting) (text : List Char) :
    Except ArgumentFault (Arguments × Waiting) :=
  let name := text.takeWhile (· != '=')
  match Switch.ofLong? (.ofList name) with
  | none => .error .unknown
  | some switch =>
      match switch.takesValue, text.drop name.length with
      | true, [] => do return (← a.settle waiting, some (switch, none))
      | true, _ :: value => do return (← a.take waiting switch (.ofList value), none)
      | false, [] => do return (← a.take waiting switch "", none)
      | false, _ :: _ => .error .unneededValue

/-- Reads arguments one by one. An argument that does not begin like a switch can only be
the value of the switch before it; behind two dashes alone there is no switch. -/
def readFrom (a : Arguments) (waiting : Waiting) :
    List String → Except ArgumentFault Arguments
  | [] => a.settle waiting
  | argument :: rest =>
      match argument.toList with
      -- No argument stands without an option, so nothing may stand behind the mark that ends them.
      | ['-', '-'] => if rest.isEmpty then a.settle waiting else .error .unknown
      | '-' :: '-' :: text => do
          let (a, waiting) ← a.readLong waiting text
          a.readFrom waiting rest
      | '-' :: c :: text => do
          let (a, waiting) ← a.readShort waiting (c :: text)
          a.readFrom waiting rest
      | _ =>
          match waiting with
          | some (switch, none) => a.readFrom (some (switch, some argument)) rest
          | _ => .error .unknown

def read (arguments : List String) : Except ArgumentFault Arguments := readFrom {} none arguments

/-- What a command line says that gives every setting the value it has anyway. -/
def redundant : Arguments where
  logFilter := some ({} : Config).logFilter
  logFormat := some ({} : Config).logFormat

/-- The layer of a command line. It always says whether messages are traced, but a redundant
command line says nothing at all. -/
def layer? (a : Arguments) : Option Layer :=
  if a = redundant then none
  else some
    { logFilter := a.logFilter.map .string
      logFormat := a.logFormat.map fun format => .string format.name
      traceMessages := some (.boolean a.traceMessages)
      lenientNotifications :=
        if a.lenientNotifications.isEmpty then none
        else some (.array (a.lenientNotifications.map .string)) }

end Arguments
end LanguageClient.Config
