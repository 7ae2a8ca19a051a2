import LanguageClient.Protocol.Params
import LanguageClient.Protocol.Result

/-! The methods of the protocol, by who sends them and whether they are answered.

A name on the wire belongs to at most one method.
-/

set_option autoImplicit false
namespace LanguageClient

inductive ServerNotification where
  | showMessage
  | logMessage
  | telemetryEvent
  | publishDiagnostics
  | progress
  | logTrace
  deriving DecidableEq, Repr

namespace ServerNotification

def all : List ServerNotification :=
  [showMessage, logMessage, telemetryEvent, publishDiagnostics, progress, logTrace]

def name : ServerNotification → String
  | showMessage => "window/showMessage"
  | logMessage => "window/logMessage"
  | telemetryEvent => "telemetry/event"
  | publishDiagnostics => "textDocument/publishDiagnostics"
  | progress => "$/progress"
  | logTrace => "$/logTrace"

def label : ServerNotification → String
  | showMessage => "ShowMessage"
  | logMessage => "LogMessage"
  | telemetryEvent => "TelemetryEvent"
  | publishDiagnostics => "PublishDiagnostics"
  | progress => "Progress"
  | logTrace => "LogTrace"

def ofName? (name : String) : Option ServerNotification := all.find? (·.name == name)

def params : ServerNotification → Schema
  | showMessage => Protocol.showMessage
  | logMessage => Protocol.logMessage
  | telemetryEvent => Protocol.telemetryEvent
  | publishDiagnostics => Protocol.publishDiagnostics
  | progress => Protocol.progress
  | logTrace => Protocol.logTrace

end ServerNotification

inductive ServerRequest where
  | configuration
  | workspaceFolders
  | registerCapability
  | unregisterCapability
  | showMessageRequest
  | showDocument
  | createProgress
  | applyEdit
  | refreshSemanticTokens
  | refreshInlayHints
  | refreshDiagnostics
  deriving DecidableEq, Repr

namespace ServerRequest

def all : List ServerRequest :=
  [configuration, workspaceFolders, registerCapability, unregisterCapability, showMessageRequest,
    showDocument, createProgress, applyEdit, refreshSemanticTokens, refreshInlayHints,
    refreshDiagnostics]

def name : ServerRequest → String
  | configuration => "workspace/configuration"
  | workspaceFolders => "workspace/workspaceFolders"
  | registerCapability => "client/registerCapability"
  | unregisterCapability => "client/unregisterCapability"
  | showMessageRequest => "window/showMessageRequest"
  | showDocument => "window/showDocument"
  | createProgress => "window/workDoneProgress/create"
  | applyEdit => "workspace/applyEdit"
  | refreshSemanticTokens => "workspace/semanticTokens/refresh"
  | refreshInlayHints => "workspace/inlayHint/refresh"
  | refreshDiagnostics => "workspace/diagnostic/refresh"

def label : ServerRequest → String
  | configuration => "WorkspaceConfiguration"
  | workspaceFolders => "WorkspaceFolders"
  | registerCapability => "RegisterCapability"
  | unregisterCapability => "UnregisterCapability"
  | showMessageRequest => "ShowMessageRequest"
  | showDocument => "ShowDocument"
  | createProgress => "WorkDoneProgressCreate"
  | applyEdit => "ApplyWorkspaceEdit"
  | refreshSemanticTokens => "SemanticTokensRefresh"
  | refreshInlayHints => "InlayHintRefresh"
  | refreshDiagnostics => "DiagnosticRefresh"

def ofName? (name : String) : Option ServerRequest := all.find? (·.name == name)

/-- The shape of the params, none for requests that carry nothing. -/
def params? : ServerRequest → Option Schema
  | configuration => some Protocol.configuration
  | registerCapability => some Protocol.registration
  | unregisterCapability => some Protocol.unregistration
  | showMessageRequest => some Protocol.showMessageRequest
  | showDocument => some Protocol.showDocument
  | createProgress => some Protocol.createProgress
  | applyEdit => some Protocol.applyEdit
  | workspaceFolders | refreshSemanticTokens | refreshInlayHints | refreshDiagnostics => none

end ServerRequest

inductive ClientRequest where
  | initialise
  | shutdown
  | hover
  | definition
  | references
  | completion
  | documentSymbols
  | documentDiagnostic
  | formatting
  | rename
  | codeAction
  | prepareCallHierarchy
  | incomingCalls
  | outgoingCalls
  | workspaceSymbols
  | executeCommand
  deriving DecidableEq, Repr

namespace ClientRequest

def all : List ClientRequest :=
  [initialise, shutdown, hover, definition, references, completion, documentSymbols,
    documentDiagnostic, formatting, rename, codeAction, prepareCallHierarchy, incomingCalls,
    outgoingCalls, workspaceSymbols, executeCommand]

def name : ClientRequest → String
  | initialise => "initialize"
  | shutdown => "shutdown"
  | hover => "textDocument/hover"
  | definition => "textDocument/definition"
  | references => "textDocument/references"
  | completion => "textDocument/completion"
  | documentSymbols => "textDocument/documentSymbol"
  | documentDiagnostic => "textDocument/diagnostic"
  | formatting => "textDocument/formatting"
  | rename => "textDocument/rename"
  | codeAction => "textDocument/codeAction"
  | prepareCallHierarchy => "textDocument/prepareCallHierarchy"
  | incomingCalls => "callHierarchy/incomingCalls"
  | outgoingCalls => "callHierarchy/outgoingCalls"
  | workspaceSymbols => "workspace/symbol"
  | executeCommand => "workspace/executeCommand"

def label : ClientRequest → String
  | initialise => "Initialize"
  | shutdown => "Shutdown"
  | hover => "Hover"
  | definition => "GotoDefinition"
  | references => "References"
  | completion => "Completion"
  | documentSymbols => "DocumentSymbol"
  | documentDiagnostic => "DocumentDiagnostic"
  | formatting => "Formatting"
  | rename => "Rename"
  | codeAction => "CodeAction"
  | prepareCallHierarchy => "PrepareCallHierarchy"
  | incomingCalls => "IncomingCalls"
  | outgoingCalls => "OutgoingCalls"
  | workspaceSymbols => "WorkspaceSymbol"
  | executeCommand => "ExecuteCommand"

def ofName? (name : String) : Option ClientRequest := all.find? (·.name == name)

def params? : ClientRequest → Option Schema
  | initialise => some Protocol.initialise
  | shutdown => none
  | hover => some Protocol.hover
  | definition => some Protocol.definition
  | references => some Protocol.references
  | completion => some Protocol.completion
  | documentSymbols => some Protocol.documentSymbols
  | documentDiagnostic => some Protocol.documentDiagnostic
  | formatting => some Protocol.formatting
  | rename => some Protocol.rename
  | codeAction => some Protocol.codeAction
  | prepareCallHierarchy => some Protocol.prepareCallHierarchy
  | incomingCalls => some Protocol.incomingCalls
  | outgoingCalls => some Protocol.outgoingCalls
  | workspaceSymbols => some Protocol.workspaceSymbols
  | executeCommand => some Protocol.executeCommand

def result : ClientRequest → Schema
  | initialise => Protocol.Result.initialise
  | shutdown => .ignored
  | hover => Protocol.Result.hover
  | definition => Protocol.Result.definition
  | references => Protocol.Result.references
  | completion => Protocol.Result.completion
  | documentSymbols => Protocol.Result.documentSymbols
  | documentDiagnostic => Protocol.Result.documentDiagnostic
  | formatting => Protocol.Result.formatting
  | rename => Protocol.Result.rename
  | codeAction => Protocol.Result.codeAction
  | prepareCallHierarchy => Protocol.Result.prepareCallHierarchy
  | incomingCalls => Protocol.Result.incomingCalls
  | outgoingCalls => Protocol.Result.outgoingCalls
  | workspaceSymbols => Protocol.Result.workspaceSymbols
  | executeCommand => Protocol.Result.executeCommand

end ClientRequest

inductive ClientNotification where
  | initialised
  | exit
  | didOpen
  | didChange
  | didClose
  | didSave
  | didChangeConfiguration
  | didChangeWatchedFiles
  | didChangeWorkspaceFolders
  | cancel
  | setTrace
  | cancelProgress
  deriving DecidableEq, Repr

namespace ClientNotification

def all : List ClientNotification :=
  [initialised, exit, didOpen, didChange, didClose, didSave, didChangeConfiguration,
    didChangeWatchedFiles, didChangeWorkspaceFolders, cancel, setTrace, cancelProgress]

def name : ClientNotification → String
  | initialised => "initialized"
  | exit => "exit"
  | didOpen => "textDocument/didOpen"
  | didChange => "textDocument/didChange"
  | didClose => "textDocument/didClose"
  | didSave => "textDocument/didSave"
  | didChangeConfiguration => "workspace/didChangeConfiguration"
  | didChangeWatchedFiles => "workspace/didChangeWatchedFiles"
  | didChangeWorkspaceFolders => "workspace/didChangeWorkspaceFolders"
  | cancel => "$/cancelRequest"
  | setTrace => "$/setTrace"
  | cancelProgress => "window/workDoneProgress/cancel"

def label : ClientNotification → String
  | initialised => "Initialized"
  | exit => "Exit"
  | didOpen => "DidOpen"
  | didChange => "DidChange"
  | didClose => "DidClose"
  | didSave => "DidSave"
  | didChangeConfiguration => "DidChangeConfiguration"
  | didChangeWatchedFiles => "DidChangeWatchedFiles"
  | didChangeWorkspaceFolders => "DidChangeWorkspaceFolders"
  | cancel => "Cancel"
  | setTrace => "SetTrace"
  | cancelProgress => "WorkDoneProgressCancel"

def ofName? (name : String) : Option ClientNotification := all.find? (·.name == name)

def params? : ClientNotification → Option Schema
  | initialised => some Protocol.initialised
  | exit => none
  | didOpen => some Protocol.didOpen
  | didChange => some Protocol.didChange
  | didClose => some Protocol.didClose
  | didSave => some Protocol.didSave
  | didChangeConfiguration => some Protocol.didChangeConfiguration
  | didChangeWatchedFiles => some Protocol.didChangeWatchedFiles
  | didChangeWorkspaceFolders => some Protocol.didChangeWorkspaceFolders
  | cancel => some Protocol.cancel
  | setTrace => some Protocol.setTrace
  | cancelProgress => some Protocol.cancelProgress

end ClientNotification

inductive Method where
  | serverNotification (m : ServerNotification)
  | serverRequest (m : ServerRequest)
  | clientRequest (m : ClientRequest)
  | clientNotification (m : ClientNotification)
  deriving DecidableEq, Repr

namespace Method

def all : List Method :=
  ServerNotification.all.map serverNotification ++ ServerRequest.all.map serverRequest
    ++ ClientRequest.all.map clientRequest ++ ClientNotification.all.map clientNotification

def name : Method → String
  | serverNotification m => m.name
  | serverRequest m => m.name
  | clientRequest m => m.name
  | clientNotification m => m.name

def label : Method → String
  | serverNotification m => m.label
  | serverRequest m => m.label
  | clientRequest m => m.label
  | clientNotification m => m.label

def ofName? (name : String) : Option Method :=
  ((ServerNotification.ofName? name).map serverNotification).or
    (((ServerRequest.ofName? name).map serverRequest).or
      (((ClientRequest.ofName? name).map clientRequest).or
        ((ClientNotification.ofName? name).map clientNotification)))

/-- The shape of the params; a method that carries nothing takes null. -/
def params : Method → Schema
  | serverNotification m => m.params
  | serverRequest m => m.params?.getD .unit
  | clientRequest m => m.params?.getD .unit
  | clientNotification m => m.params?.getD .unit

end Method
end LanguageClient
