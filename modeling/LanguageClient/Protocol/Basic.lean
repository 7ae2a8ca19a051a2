import LanguageClient.Schema.Basic

/-! Shapes that many messages of the protocol share. -/

set_option autoImplicit false
namespace LanguageClient.Protocol

open Schema (required optional defaulted)

def signed : Schema := .integer .signed32
def unsigned : Schema := .integer .unsigned32
def texts : Schema := .list .text

/-- A field that is written as null when it is absent. -/
def nullable (name : String) (shape : Schema) : Field Schema :=
  ⟨name, .option shape, .optional, false⟩

def position : Schema :=
  .record "Position" [required "line" unsigned, required "character" unsigned]

def range : Schema :=
  .record "Range" [required "start" position, required "end" position]

def location : Schema :=
  .record "Location" [required "uri" .uri, required "range" range]

def locationLink : Schema :=
  .record "LocationLink"
    [optional "originSelectionRange" range, required "targetUri" .uri,
      required "targetRange" range, required "targetSelectionRange" range]

def numberOrString : Schema := .untagged "NumberOrString" [signed, .text]

def oneOf (first second : Schema) : Schema := .untagged "OneOf" [first, second]

def textDocument : Schema := .record "TextDocumentIdentifier" [required "uri" .uri]

def versionedTextDocument : Schema :=
  .record "VersionedTextDocumentIdentifier" [required "uri" .uri, required "version" signed]

def textDocumentPosition : Schema :=
  .record "TextDocumentPositionParams"
    [required "textDocument" textDocument, required "position" position]

def workDone : Schema := .record "WorkDoneProgressParams" [optional "workDoneToken" numberOrString]

def partialResult : Schema :=
  .record "PartialResultParams" [optional "partialResultToken" numberOrString]

def workDoneOptions : Schema :=
  .record "WorkDoneProgressOptions" [optional "workDoneProgress" .boolean]

def workspaceFolder : Schema :=
  .record "WorkspaceFolder" [required "uri" .uri, required "name" .text]

def textEdit : Schema := .record "TextEdit" [required "range" range, required "newText" .text]

def command : Schema :=
  .record "Command"
    [required "title" .text, required "command" .text, optional "arguments" (.list .value)]

def markupKind : Schema := .variant ["plaintext", "markdown"]

def markupContent : Schema :=
  .record "MarkupContent" [required "kind" markupKind, required "value" .text]

def relatedInformation : Schema :=
  .record "DiagnosticRelatedInformation"
    [required "location" location, required "message" .text]

def diagnostic : Schema :=
  .record "Diagnostic"
    [required "range" range, optional "severity" signed, optional "code" numberOrString,
      optional "codeDescription" (.record "CodeDescription" [required "href" .uri]),
      optional "source" .text, required "message" .text,
      optional "relatedInformation" (.list relatedInformation), optional "tags" (.list signed),
      optional "data" .value]

def callHierarchyItem : Schema :=
  .record "CallHierarchyItem"
    [required "name" .text, required "kind" signed, optional "tags" (.list signed),
      optional "detail" .text, required "uri" .uri, required "range" range,
      required "selectionRange" range, optional "data" .value]

end LanguageClient.Protocol
