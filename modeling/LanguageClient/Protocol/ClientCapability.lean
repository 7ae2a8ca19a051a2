import LanguageClient.Protocol.Basic

/-! What a client says of itself when a session starts. -/

set_option autoImplicit false
namespace LanguageClient.Protocol

open Schema (required optional defaulted)

def flag (name : String) : Field Schema := optional name .boolean

def dynamicRegistration : Schema :=
  .record "DynamicRegistrationClientCapabilities" [flag "dynamicRegistration"]

def properties (name : String) : Schema := .record name [required "properties" texts]

def refresh (name : String) : Schema := .record name [flag "refreshSupport"]

/-- Tags that may be used; older peers say only yes or no. -/
def tagSupport : Field Schema :=
  ⟨"tagSupport", .toggled (.record "TagSupport" [required "valueSet" (.list signed)])
    (.record [.list []]), .default .absent, true⟩

def symbolKinds : Schema := .record "SymbolKindCapability" [nullable "valueSet" (.list signed)]

def workspaceEditCapability : Schema :=
  .record "WorkspaceEditClientCapabilities"
    [flag "documentChanges",
      optional "resourceOperations" (.list (.variant ["create", "rename", "delete"])),
      optional "failureHandling"
        (.variant ["abort", "transactional", "textOnlyTransactional", "undo"]),
      flag "normalizesLineEndings",
      optional "changeAnnotationSupport"
        (.record "ChangeAnnotationWorkspaceEditClientCapabilities" [flag "groupsOnLabel"])]

def workspaceCapability : Schema :=
  .record "WorkspaceClientCapabilities"
    [flag "applyEdit", optional "workspaceEdit" workspaceEditCapability,
      optional "didChangeConfiguration" dynamicRegistration,
      optional "didChangeWatchedFiles" (.record "DidChangeWatchedFilesClientCapabilities"
        [flag "dynamicRegistration", flag "relativePatternSupport"]),
      optional "symbol" (.record "WorkspaceSymbolClientCapabilities"
        [flag "dynamicRegistration", optional "symbolKind" symbolKinds, tagSupport,
          optional "resolveSupport" (properties "WorkspaceSymbolResolveSupportCapability")]),
      optional "executeCommand" dynamicRegistration,
      flag "workspaceFolders", flag "configuration",
      optional "semanticTokens" (.record "SemanticTokensWorkspaceClientCapabilities"
        [nullable "refreshSupport" .boolean]),
      optional "codeLens" (refresh "CodeLensWorkspaceClientCapabilities"),
      optional "fileOperations" (.record "WorkspaceFileOperationsClientCapabilities"
        [flag "dynamicRegistration", flag "didCreate", flag "willCreate", flag "didRename",
          flag "willRename", flag "didDelete", flag "willDelete"]),
      optional "inlineValue" (refresh "InlineValueWorkspaceClientCapabilities"),
      optional "inlayHint" (refresh "InlayHintWorkspaceClientCapabilities"),
      optional "diagnostic" (refresh "DiagnosticWorkspaceClientCapabilities")]

def completionItemCapability : Schema :=
  .record "CompletionItemCapability"
    [flag "snippetSupport", flag "commitCharactersSupport",
      optional "documentationFormat" (.list markupKind), flag "deprecatedSupport",
      flag "preselectSupport", tagSupport, flag "insertReplaceSupport",
      optional "resolveSupport" (properties "CompletionItemCapabilityResolveSupport"),
      optional "insertTextModeSupport"
        (.record "InsertTextModeSupport" [required "valueSet" (.list signed)]),
      flag "labelDetailsSupport"]

def completionCapability : Schema :=
  .record "CompletionClientCapabilities"
    [flag "dynamicRegistration", optional "completionItem" completionItemCapability,
      optional "completionItemKind"
        (.record "CompletionItemKindCapability" [optional "valueSet" (.list signed)]),
      flag "contextSupport", optional "insertTextMode" signed,
      optional "completionList" (.record "CompletionListCapability" [optional "itemDefaults" texts])]

def signatureHelpCapability : Schema :=
  .record "SignatureHelpClientCapabilities"
    [flag "dynamicRegistration",
      optional "signatureInformation" (.record "SignatureInformationSettings"
        [optional "documentationFormat" (.list markupKind),
          optional "parameterInformation"
            (.record "ParameterInformationSettings" [flag "labelOffsetSupport"]),
          flag "activeParameterSupport"]),
      flag "contextSupport"]

def gotoCapability : Schema :=
  .record "GotoCapability" [flag "dynamicRegistration", flag "linkSupport"]

def codeActionCapability : Schema :=
  .record "CodeActionClientCapabilities"
    [flag "dynamicRegistration",
      optional "codeActionLiteralSupport" (.record "CodeActionLiteralSupport"
        [required "codeActionKind"
          (.record "CodeActionKindLiteralSupport" [required "valueSet" texts])]),
      flag "isPreferredSupport", flag "disabledSupport", flag "dataSupport",
      optional "resolveSupport" (properties "CodeActionCapabilityResolveSupport"),
      flag "honorsChangeAnnotations"]

def semanticTokensFull : Schema :=
  .untagged "SemanticTokensFullOptions"
    [.boolean, .merged "SemanticTokensFullOptions" [flag "delta"] []]

def semanticTokensCapability : Schema :=
  .record "SemanticTokensClientCapabilities"
    [flag "dynamicRegistration",
      required "requests" (.record "SemanticTokensClientCapabilitiesRequests"
        [flag "range", optional "full" semanticTokensFull]),
      required "tokenTypes" texts, required "tokenModifiers" texts, required "formats" texts,
      flag "overlappingTokenSupport", flag "multilineTokenSupport", flag "serverCancelSupport",
      flag "augmentsSyntaxTokens"]

def textDocumentCapability : Schema :=
  .record "TextDocumentClientCapabilities"
    [optional "synchronization" (.record "TextDocumentSyncClientCapabilities"
        [flag "dynamicRegistration", flag "willSave", flag "willSaveWaitUntil", flag "didSave"]),
      optional "completion" completionCapability,
      optional "hover" (.record "HoverClientCapabilities"
        [flag "dynamicRegistration", optional "contentFormat" (.list markupKind)]),
      optional "signatureHelp" signatureHelpCapability,
      optional "references" dynamicRegistration,
      optional "documentHighlight" dynamicRegistration,
      optional "documentSymbol" (.record "DocumentSymbolClientCapabilities"
        [flag "dynamicRegistration", optional "symbolKind" symbolKinds,
          flag "hierarchicalDocumentSymbolSupport", tagSupport]),
      optional "formatting" dynamicRegistration,
      optional "rangeFormatting" dynamicRegistration,
      optional "onTypeFormatting" dynamicRegistration,
      optional "declaration" gotoCapability,
      optional "definition" gotoCapability,
      optional "typeDefinition" gotoCapability,
      optional "implementation" gotoCapability,
      optional "codeAction" codeActionCapability,
      optional "codeLens" dynamicRegistration,
      optional "documentLink" (.record "DocumentLinkClientCapabilities"
        [flag "dynamicRegistration", flag "tooltipSupport"]),
      optional "colorProvider" dynamicRegistration,
      optional "rename" (.record "RenameClientCapabilities"
        [flag "dynamicRegistration", flag "prepareSupport",
          optional "prepareSupportDefaultBehavior" signed, flag "honorsChangeAnnotations"]),
      optional "publishDiagnostics" (.record "PublishDiagnosticsClientCapabilities"
        [flag "relatedInformation", tagSupport, flag "versionSupport",
          flag "codeDescriptionSupport", flag "dataSupport"]),
      optional "foldingRange" (.record "FoldingRangeClientCapabilities"
        [flag "dynamicRegistration", optional "rangeLimit" unsigned, flag "lineFoldingOnly",
          optional "foldingRangeKind" (.record "FoldingRangeKindCapability"
            [optional "valueSet" (.list (.variant ["comment", "imports", "region"]))]),
          optional "foldingRange" (.record "FoldingRangeCapability" [flag "collapsedText"])]),
      optional "selectionRange"
        (.record "SelectionRangeClientCapabilities" [flag "dynamicRegistration"]),
      optional "linkedEditingRange" dynamicRegistration,
      optional "callHierarchy" dynamicRegistration,
      optional "semanticTokens" semanticTokensCapability,
      optional "moniker" dynamicRegistration,
      optional "typeHierarchy" dynamicRegistration,
      optional "inlineValue" dynamicRegistration,
      optional "inlayHint" (.record "InlayHintClientCapabilities"
        [flag "dynamicRegistration",
          optional "resolveSupport" (properties "InlayHintResolveClientCapabilities")]),
      optional "diagnostic" (.record "DiagnosticClientCapabilities"
        [flag "dynamicRegistration", flag "relatedDocumentSupport"])]

def notebookCapability : Schema :=
  .record "NotebookDocumentClientCapabilities"
    [required "synchronization" (.record "NotebookDocumentSyncClientCapabilities"
      [flag "dynamicRegistration", flag "executionSummaryReport"])]

def windowCapability : Schema :=
  .record "WindowClientCapabilities"
    [flag "workDoneProgress",
      optional "showMessage" (.record "ShowMessageRequestClientCapabilities"
        [optional "messageActionItem"
          (.record "MessageActionItemCapabilities" [flag "additionalPropertiesSupport"])]),
      optional "showDocument"
        (.record "ShowDocumentClientCapabilities" [required "support" .boolean])]

def generalCapability : Schema :=
  .record "GeneralClientCapabilities"
    [optional "regularExpressions" (.record "RegularExpressionsClientCapabilities"
        [required "engine" .text, optional "version" .text]),
      optional "markdown" (.record "MarkdownClientCapabilities"
        [required "parser" .text, optional "version" .text, optional "allowedTags" texts]),
      optional "staleRequestSupport" (.record "StaleRequestSupportClientCapabilities"
        [required "cancel" .boolean, required "retryOnContentModified" texts]),
      optional "positionEncodings" texts]

def clientCapabilities : Schema :=
  .record "ClientCapabilities"
    [optional "workspace" workspaceCapability, optional "textDocument" textDocumentCapability,
      optional "notebookDocument" notebookCapability, optional "window" windowCapability,
      optional "general" generalCapability, optional "experimental" .value]

end LanguageClient.Protocol
