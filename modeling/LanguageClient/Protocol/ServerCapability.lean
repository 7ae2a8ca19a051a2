import LanguageClient.Protocol.Basic

/-! What a server says of itself when a session starts. -/

set_option autoImplicit false
namespace LanguageClient.Protocol

open Schema (required optional defaulted)

def documentFilter : Schema :=
  .record "DocumentFilter" [optional "language" .text, optional "scheme" .text, optional "pattern" .text]

def documentSelector : Field Schema := nullable "documentSelector" (.list documentFilter)

/-- Options that only say whether progress is reported. -/
def plainOptions (name : String) : Schema := .merged name [] [workDoneOptions]

def textDocumentRegistration : Schema :=
  .record "TextDocumentRegistrationOptions" [documentSelector]

def staticRegistration : Schema := .record "StaticRegistrationOptions" [optional "id" .text]

def staticTextDocumentRegistration : Schema :=
  .record "StaticTextDocumentRegistrationOptions" [documentSelector, optional "id" .text]

def resolving : Field Schema := optional "resolveProvider" .boolean

def switchOr (name : String) (options : Schema) : Field Schema :=
  optional name (oneOf .boolean options)

/-- A field that is a yes or no, or one of several kinds of options. -/
def provided (name union : String) (options : List Schema) : Field Schema :=
  optional name (.untagged union (.boolean :: options))

def textDocumentSync : Schema :=
  .untagged "TextDocumentSyncCapability"
    [signed, .record "TextDocumentSyncOptions"
      [optional "openClose" .boolean, optional "change" signed, optional "willSave" .boolean,
        optional "willSaveWaitUntil" .boolean,
        optional "save" (.untagged "TextDocumentSyncSaveOptions"
          [.boolean, .record "SaveOptions" [optional "includeText" .boolean]])]]

def notebookFilter : Schema :=
  .untagged "Notebook"
    [.text, .untagged "NotebookDocumentFilter"
      [.merged "NotebookDocumentFilter"
          [required "notebook_type" .text, optional "scheme" .text, optional "pattern" .text] [],
        .merged "NotebookDocumentFilter"
          [optional "notebook_type" .text, required "scheme" .text, optional "pattern" .text] [],
        .merged "NotebookDocumentFilter"
          [optional "notebook_type" .text, optional "scheme" .text, required "pattern" .text] []]]

def notebookSelector : Schema :=
  let cells : Schema := .list (.record "NotebookCellSelector" [required "language" .text])
  .untagged "NotebookSelector"
    [.merged "NotebookSelector" [required "notebook" notebookFilter, optional "cells" cells] [],
      .merged "NotebookSelector" [optional "notebook" notebookFilter, required "cells" cells] []]

def notebookSync : Schema :=
  .record "NotebookDocumentSyncOptions"
    [required "notebookSelector" (.list notebookSelector), optional "save" .boolean]

def notebookSyncRegistration : Schema :=
  .record "NotebookDocumentSyncRegistrationOptions"
    [required "notebookSelector" (.list notebookSelector), optional "save" .boolean,
      optional "id" .text]

def completionOptions : Schema :=
  .merged "CompletionOptions"
    [resolving, optional "triggerCharacters" texts, optional "allCommitCharacters" texts,
      optional "completionItem"
        (.record "CompletionOptionsCompletionItem" [optional "labelDetailsSupport" .boolean])]
    [workDoneOptions]

def signatureHelpOptions : Schema :=
  .merged "SignatureHelpOptions"
    [optional "triggerCharacters" texts, optional "retriggerCharacters" texts] [workDoneOptions]

def codeActionOptions : Schema :=
  .merged "CodeActionOptions" [optional "codeActionKinds" texts, resolving] [workDoneOptions]

def semanticTokensLegend : Schema :=
  .record "SemanticTokensLegend" [required "tokenTypes" texts, required "tokenModifiers" texts]

def semanticTokensServer : Schema :=
  let full : Schema := .untagged "SemanticTokensFullOptions"
    [.boolean, .merged "SemanticTokensFullOptions" [optional "delta" .boolean] []]
  let own := [required "legend" semanticTokensLegend, optional "range" .boolean, optional "full" full]
  .untagged "SemanticTokensServerCapabilities"
    [.merged "SemanticTokensOptions" own [workDoneOptions],
      .merged "SemanticTokensRegistrationOptions" own
        [textDocumentRegistration, workDoneOptions, staticRegistration]]

def diagnosticServer : Schema :=
  let own := [optional "identifier" .text, required "interFileDependencies" .boolean,
    required "workspaceDiagnostics" .boolean]
  .untagged "DiagnosticServerCapabilities"
    [.merged "DiagnosticOptions" own [workDoneOptions],
      .merged "DiagnosticRegistrationOptions" own
        [textDocumentRegistration, workDoneOptions, staticRegistration]]

def optionsOrRegistration (name : String) : Schema :=
  .untagged (name ++ "ServerCapabilities")
    [plainOptions (name ++ "Options"),
      .merged (name ++ "RegistrationOptions") [] [workDoneOptions, textDocumentRegistration,
        staticRegistration]]

def inlayHintServer : Schema :=
  .untagged "InlayHintServerCapabilities"
    [.merged "InlayHintOptions" [resolving] [workDoneOptions],
      .merged "InlayHintRegistrationOptions" [resolving]
        [workDoneOptions, textDocumentRegistration, staticRegistration]]

def fileOperationFilters : Schema :=
  .record "FileOperationRegistrationOptions"
    [required "filters" (.list (.record "FileOperationFilter"
      [nullable "scheme" .text,
        required "pattern" (.record "FileOperationPattern"
          [required "glob" .text, optional "matches" (.variant ["file", "folder"]),
            optional "options"
              (.record "FileOperationPatternOptions" [optional "ignoreCase" .boolean])])]))]

def workspaceServer : Schema :=
  .record "WorkspaceServerCapabilities"
    [optional "workspaceFolders" (.record "WorkspaceFoldersServerCapabilities"
        [optional "supported" .boolean, optional "changeNotifications" (oneOf .boolean .text)]),
      optional "fileOperations" (.record "WorkspaceFileOperationsServerCapabilities"
        [optional "didCreate" fileOperationFilters, optional "willCreate" fileOperationFilters,
          optional "didRename" fileOperationFilters, optional "willRename" fileOperationFilters,
          optional "didDelete" fileOperationFilters, optional "willDelete" fileOperationFilters])]

def serverCapabilities : Schema :=
  let registered := staticTextDocumentRegistration
  let colorRegistration : Schema :=
    .record "StaticTextDocumentColorProviderOptions" [documentSelector, optional "id" .text]
  .record "ServerCapabilities"
    [optional "positionEncoding" .text,
      optional "textDocumentSync" textDocumentSync,
      optional "notebookDocumentSync" (oneOf notebookSync notebookSyncRegistration),
      provided "selectionRangeProvider" "SelectionRangeProviderCapability"
        [plainOptions "SelectionRangeOptions",
          .merged "SelectionRangeRegistrationOptions" [] [workDoneOptions, registered]],
      provided "hoverProvider" "HoverProviderCapability" [plainOptions "HoverOptions"],
      optional "completionProvider" completionOptions,
      optional "signatureHelpProvider" signatureHelpOptions,
      switchOr "definitionProvider" (plainOptions "DefinitionOptions"),
      provided "typeDefinitionProvider" "TypeDefinitionProviderCapability" [registered],
      provided "implementationProvider" "ImplementationProviderCapability" [registered],
      switchOr "referencesProvider" (plainOptions "ReferencesOptions"),
      switchOr "documentHighlightProvider" (plainOptions "DocumentHighlightOptions"),
      switchOr "documentSymbolProvider"
        (.merged "DocumentSymbolOptions" [optional "label" .text] [workDoneOptions]),
      switchOr "workspaceSymbolProvider"
        (.merged "WorkspaceSymbolOptions" [resolving] [workDoneOptions]),
      provided "codeActionProvider" "CodeActionProviderCapability" [codeActionOptions],
      optional "codeLensProvider" (.record "CodeLensOptions" [resolving]),
      switchOr "documentFormattingProvider" (plainOptions "DocumentFormattingOptions"),
      switchOr "documentRangeFormattingProvider" (plainOptions "DocumentRangeFormattingOptions"),
      optional "documentOnTypeFormattingProvider" (.record "DocumentOnTypeFormattingOptions"
        [required "firstTriggerCharacter" .text, optional "moreTriggerCharacter" texts]),
      switchOr "renameProvider"
        (.merged "RenameOptions" [optional "prepareProvider" .boolean] [workDoneOptions]),
      optional "documentLinkProvider"
        (.merged "DocumentLinkOptions" [resolving] [workDoneOptions]),
      provided "colorProvider" "ColorProviderCapability"
        [.record "ColorProviderOptions" [], colorRegistration],
      provided "foldingRangeProvider" "FoldingRangeProviderCapability"
        [.record "FoldingProviderOptions" [], colorRegistration],
      provided "declarationProvider" "DeclarationCapability"
        [.merged "DeclarationRegistrationOptions" [] [workDoneOptions, registered],
          plainOptions "DeclarationOptions"],
      optional "executeCommandProvider"
        (.merged "ExecuteCommandOptions" [required "commands" texts] [workDoneOptions]),
      optional "workspace" workspaceServer,
      provided "callHierarchyProvider" "CallHierarchyServerCapability"
        [plainOptions "CallHierarchyOptions"],
      optional "semanticTokensProvider" semanticTokensServer,
      switchOr "monikerProvider" (optionsOrRegistration "Moniker"),
      provided "linkedEditingRangeProvider" "LinkedEditingRangeServerCapabilities"
        [plainOptions "LinkedEditingRangeOptions",
          .merged "LinkedEditingRangeRegistrationOptions" []
            [textDocumentRegistration, workDoneOptions, staticRegistration]],
      switchOr "inlineValueProvider" (optionsOrRegistration "InlineValue"),
      switchOr "inlayHintProvider" inlayHintServer,
      optional "diagnosticProvider" diagnosticServer,
      optional "experimental" .value]

end LanguageClient.Protocol
