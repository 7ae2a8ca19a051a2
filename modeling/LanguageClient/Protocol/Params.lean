import LanguageClient.Protocol.ClientCapability
import LanguageClient.Protocol.Edit

/-! What the messages of both sides carry. -/

set_option autoImplicit false
namespace LanguageClient.Protocol

open Schema (required optional defaulted)

def document : Field Schema := required "textDocument" textDocument

/-! From the client. -/

def initialise : Schema :=
  .merged "InitializeParams"
    [nullable "processId" unsigned, optional "rootPath" .text, nullable "rootUri" .uri,
      optional "initializationOptions" .value, required "capabilities" clientCapabilities,
      optional "trace" (.variant ["off", "messages", "verbose"]),
      optional "workspaceFolders" (.list workspaceFolder),
      optional "clientInfo"
        (.record "ClientInfo" [required "name" .text, optional "version" .text]),
      optional "locale" .text]
    [workDone]

def hover : Schema := .merged "HoverParams" [] [textDocumentPosition, workDone]

def definition : Schema :=
  .merged "GotoDefinitionParams" [] [textDocumentPosition, workDone, partialResult]

def references : Schema :=
  .merged "ReferenceParams"
    [required "context" (.record "ReferenceContext" [required "includeDeclaration" .boolean])]
    [textDocumentPosition, workDone, partialResult]

def completion : Schema :=
  .merged "CompletionParams"
    [optional "context" (.record "CompletionContext"
      [required "triggerKind" signed, optional "triggerCharacter" .text])]
    [textDocumentPosition, workDone, partialResult]

def documentSymbols : Schema :=
  .merged "DocumentSymbolParams" [document] [workDone, partialResult]

def documentDiagnostic : Schema :=
  .merged "DocumentDiagnosticParams"
    [document, nullable "identifier" .text, nullable "previousResultId" .text]
    [workDone, partialResult]

def formattingProperty : Schema := .untagged "FormattingProperty" [.boolean, signed, .text]

def formattingOptions : Schema :=
  .merged "FormattingOptions"
    [required "tabSize" unsigned, required "insertSpaces" .boolean,
      optional "trimTrailingWhitespace" .boolean, optional "insertFinalNewline" .boolean,
      optional "trimFinalNewlines" .boolean]
    [.map false formattingProperty]

def formatting : Schema :=
  .merged "DocumentFormattingParams" [document, required "options" formattingOptions] [workDone]

def rename : Schema :=
  .merged "RenameParams" [required "newName" .text] [textDocumentPosition, workDone]

def codeAction : Schema :=
  .merged "CodeActionParams"
    [document, required "range" range,
      required "context" (.record "CodeActionContext"
        [required "diagnostics" (.list diagnostic), optional "only" texts,
          optional "triggerKind" signed])]
    [workDone, partialResult]

def prepareCallHierarchy : Schema :=
  .merged "CallHierarchyPrepareParams" [] [textDocumentPosition, workDone]

def incomingCalls : Schema :=
  .merged "CallHierarchyIncomingCallsParams" [required "item" callHierarchyItem]
    [workDone, partialResult]

def outgoingCalls : Schema :=
  .merged "CallHierarchyOutgoingCallsParams" [required "item" callHierarchyItem]
    [workDone, partialResult]

def workspaceSymbols : Schema :=
  .merged "WorkspaceSymbolParams" [required "query" .text] [partialResult, workDone]

def executeCommand : Schema :=
  .merged "ExecuteCommandParams"
    [required "command" .text, ⟨"arguments", .list .value, .default (.list []), false⟩] [workDone]

def initialised : Schema := .record "InitializedParams" []

def didOpen : Schema :=
  .record "DidOpenTextDocumentParams"
    [required "textDocument" (.record "TextDocumentItem"
      [required "uri" .uri, required "languageId" .text, required "version" signed,
        required "text" .text])]

def didChange : Schema :=
  .record "DidChangeTextDocumentParams"
    [required "textDocument" versionedTextDocument,
      required "contentChanges" (.list (.record "TextDocumentContentChangeEvent"
        [optional "range" range, optional "rangeLength" unsigned, required "text" .text]))]

def didClose : Schema := .record "DidCloseTextDocumentParams" [document]

def didSave : Schema := .record "DidSaveTextDocumentParams" [document, optional "text" .text]

def didChangeConfiguration : Schema :=
  .record "DidChangeConfigurationParams" [required "settings" .value]

def didChangeWatchedFiles : Schema :=
  .record "DidChangeWatchedFilesParams"
    [required "changes"
      (.list (.record "FileEvent" [required "uri" .uri, required "type" signed]))]

def didChangeWorkspaceFolders : Schema :=
  .record "DidChangeWorkspaceFoldersParams"
    [required "event" (.record "WorkspaceFoldersChangeEvent"
      [required "added" (.list workspaceFolder), required "removed" (.list workspaceFolder)])]

def cancel : Schema := .record "CancelParams" [required "id" numberOrString]

def setTrace : Schema :=
  .record "SetTraceParams" [required "value" (.variant ["off", "messages", "verbose"])]

def cancelProgress : Schema := .record "WorkDoneProgressCancelParams" [required "token" numberOrString]

/-! From the server. -/

def showMessage : Schema :=
  .record "ShowMessageParams" [required "type" signed, required "message" .text]

def logMessage : Schema :=
  .record "LogMessageParams" [required "type" signed, required "message" .text]

def telemetryEvent : Schema := oneOf (.map false .value) (.list .value)

def publishDiagnostics : Schema :=
  .record "PublishDiagnosticsParams"
    [required "uri" .uri, required "diagnostics" (.list diagnostic), optional "version" signed]

def workDoneProgress : Schema :=
  .tagged "WorkDoneProgress" "kind"
    [("begin", .record "WorkDoneProgressBegin"
        [required "title" .text, optional "cancellable" .boolean, optional "message" .text,
          optional "percentage" unsigned]),
      ("report", .record "WorkDoneProgressReport"
        [optional "cancellable" .boolean, optional "message" .text, optional "percentage" unsigned]),
      ("end", .record "WorkDoneProgressEnd" [optional "message" .text])]

def progress : Schema :=
  .record "ProgressParams"
    [required "token" numberOrString,
      required "value" (.untagged "ProgressParamsValue" [workDoneProgress])]

def logTrace : Schema :=
  .record "LogTraceParams" [required "message" .text, optional "verbose" .text]

def configuration : Schema :=
  .record "ConfigurationParams"
    [required "items" (.list (.record "ConfigurationItem"
      [optional "scopeUri" .uri, optional "section" .text]))]

def registration : Schema :=
  .record "RegistrationParams"
    [required "registrations" (.list (.record "Registration"
      [required "id" .text, required "method" .text, optional "registerOptions" .value]))]

def unregistration : Schema :=
  .record "UnregistrationParams"
    [required "unregisterations" (.list (.record "Unregistration"
      [required "id" .text, required "method" .text]))]

def messageActionProperty : Schema :=
  .untagged "MessageActionItemProperty" [.text, .boolean, signed, .value]

def showMessageRequest : Schema :=
  .record "ShowMessageRequestParams"
    [required "type" signed, required "message" .text,
      optional "actions" (.list (.merged "MessageActionItem" [required "title" .text]
        [.map false messageActionProperty]))]

def showDocument : Schema :=
  .record "ShowDocumentParams"
    [required "uri" .uri, optional "external" .boolean, optional "takeFocus" .boolean,
      optional "selection" range]

def createProgress : Schema := .record "WorkDoneProgressCreateParams" [required "token" numberOrString]

def applyEdit : Schema :=
  .record "ApplyWorkspaceEditParams" [optional "label" .text, required "edit" workspaceEdit]

end LanguageClient.Protocol
