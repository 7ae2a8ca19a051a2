import LanguageClient.Protocol.Edit
import LanguageClient.Protocol.ServerCapability

/-! What the answers to the client's requests carry. -/

set_option autoImplicit false
namespace LanguageClient.Protocol.Result

open Schema (required optional defaulted)

def initialise : Schema :=
  .record "InitializeResult"
    [required "capabilities" serverCapabilities,
      optional "serverInfo"
        (.record "ServerInfo" [required "name" .text, optional "version" .text])]

def markedString : Schema :=
  .untagged "MarkedString"
    [.text, .record "LanguageString" [required "language" .text, required "value" .text]]

def hover : Schema :=
  .option (.record "Hover"
    [required "contents"
      (.untagged "HoverContents" [markedString, .list markedString, markupContent]),
      optional "range" range])

def definition : Schema :=
  .option (.untagged "GotoDefinitionResponse" [location, .list location, .list locationLink])

def references : Schema := .option (.list location)

def completionItem : Schema :=
  .record "CompletionItem"
    [required "label" .text,
      optional "labelDetails" (.record "CompletionItemLabelDetails"
        [optional "detail" .text, optional "description" .text]),
      optional "kind" signed, optional "detail" .text,
      optional "documentation" (.untagged "Documentation" [.text, markupContent]),
      optional "deprecated" .boolean, optional "preselect" .boolean, optional "sortText" .text,
      optional "filterText" .text, optional "insertText" .text, optional "insertTextFormat" signed,
      optional "insertTextMode" signed,
      optional "textEdit" (.untagged "CompletionTextEdit"
        [textEdit, .record "InsertReplaceEdit"
          [required "newText" .text, required "insert" range, required "replace" range]]),
      optional "additionalTextEdits" (.list textEdit), optional "command" command,
      optional "commitCharacters" texts, optional "data" .value, optional "tags" (.list signed)]

def completion : Schema :=
  .option (.untagged "CompletionResponse"
    [.list completionItem, .record "CompletionList"
      [required "isIncomplete" .boolean, required "items" (.list completionItem)]])

def symbolInformation : Schema :=
  .record "SymbolInformation"
    [required "name" .text, required "kind" signed, optional "tags" (.list signed),
      optional "deprecated" .boolean, required "location" location, optional "containerName" .text]

def documentSymbol : Schema :=
  .recursive (.record "DocumentSymbol"
    [required "name" .text, optional "detail" .text, required "kind" signed,
      optional "tags" (.list signed), optional "deprecated" .boolean, required "range" range,
      required "selectionRange" range, optional "children" (.list .recur)])

def documentSymbols : Schema :=
  .option (.untagged "DocumentSymbolResponse" [.list symbolInformation, .list documentSymbol])

def relatedReports : Field Schema :=
  let full : Schema := .record "FullDocumentDiagnosticReport"
    [optional "resultId" .text, required "items" (.list diagnostic)]
  let unchanged : Schema := .record "UnchangedDocumentDiagnosticReport" [required "resultId" .text]
  defaulted "relatedDocuments" (.map true
    (.tagged "DocumentDiagnosticReportKind" "kind" [("full", full), ("unchanged", unchanged)]))

def documentDiagnostic : Schema :=
  .untagged "DocumentDiagnosticReportResult"
    [.tagged "DocumentDiagnosticReport" "kind"
      [("full", .merged "RelatedFullDocumentDiagnosticReport" [relatedReports]
          [.record "FullDocumentDiagnosticReport"
            [optional "resultId" .text, required "items" (.list diagnostic)]]),
        ("unchanged", .merged "RelatedUnchangedDocumentDiagnosticReport" [relatedReports]
          [.record "UnchangedDocumentDiagnosticReport" [required "resultId" .text]])],
      .record "DocumentDiagnosticReportPartialResult" [relatedReports]]

def formatting : Schema := .option (.list textEdit)

def rename : Schema := .option workspaceEdit

def codeAction : Schema :=
  .option (.list (.untagged "CodeActionOrCommand"
    [command, .record "CodeAction"
      [required "title" .text, optional "kind" .text, optional "diagnostics" (.list diagnostic),
        optional "edit" workspaceEdit, optional "command" command, optional "isPreferred" .boolean,
        optional "disabled" (.record "CodeActionDisabled" [required "reason" .text]),
        optional "data" .value]]))

def prepareCallHierarchy : Schema := .option (.list callHierarchyItem)

def incomingCalls : Schema :=
  .option (.list (.record "CallHierarchyIncomingCall"
    [required "from" callHierarchyItem, required "fromRanges" (.list range)]))

def outgoingCalls : Schema :=
  .option (.list (.record "CallHierarchyOutgoingCall"
    [required "to" callHierarchyItem, required "fromRanges" (.list range)]))

def workspaceSymbols : Schema :=
  .option (.untagged "WorkspaceSymbolResponse"
    [.list symbolInformation, .list (.record "WorkspaceSymbol"
      [required "name" .text, required "kind" signed, optional "tags" (.list signed),
        optional "containerName" .text,
        required "location"
          (oneOf location (.record "WorkspaceLocation" [required "uri" .uri])),
        optional "data" .value])])

def executeCommand : Schema := .option .value

end LanguageClient.Protocol.Result
