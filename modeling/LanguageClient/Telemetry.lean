import LanguageClient.Log.Filter
import LanguageClient.Log.Line
import LanguageClient.Session.Basic

/-! Where log records go. A process has one place for a subscriber; who takes it first
keeps it. -/

set_option autoImplicit false
namespace LanguageClient

inductive TelemetryFault where
  | badFilter (text : String) (fault : Log.FilterFault)
  /-- Someone else subscribed first. -/
  | taken
  deriving DecidableEq, Repr

def TelemetryFault.message : TelemetryFault → String
  | badFilter text fault => "invalid log filter '" ++ text ++ "': " ++ fault.message
  | taken =>
      "failed to install telemetry subscriber: a global default trace dispatcher has "
        ++ "already been set"

inductive Subscriber where
  | vacant
  | foreign
  | client (filter : Log.Filter) (format : LogFormat)
  deriving DecidableEq, Repr

def wireRule : Log.Rule := ⟨some Log.Target.wire.name, none, .least .info⟩

/-- The filter of some settings. Tracing opens the wire target over whatever the text says. -/
def Config.filter (config : Config) : Except Log.FilterFault Log.Filter := do
  let filter ← Log.Filter.read config.logFilter
  return if config.traceMessages then filter.add wireRule else filter

namespace Subscriber

/-- Subscribes as the settings say, unless the client has subscribed already. A failure
leaves the place as it was. -/
def initialise (s : Subscriber) (config : Config) : Except TelemetryFault Unit × Subscriber :=
  match s with
  | client _ _ => (.ok (), s)
  | vacant | foreign =>
      match config.filter with
      | .error fault => (.error (.badFilter config.logFilter fault), s)
      | .ok filter =>
          if s = foreign then (.error .taken, s) else (.ok (), client filter config.logFormat)

def initialiseAll (s : Subscriber) : List Config → List (Except TelemetryFault Unit) × Subscriber
  | [] => ([], s)
  | config :: rest =>
      let (result, s) := s.initialise config
      let (results, s) := s.initialiseAll rest
      (result :: results, s)

def lines (s : Subscriber) (events : List Event) : List String :=
  match s with
  | vacant | foreign => []
  | client filter format => events.filterMap fun
      | .log r => if filter.admits r then some (r.line format) else none
      | _ => none

end Subscriber
end LanguageClient
