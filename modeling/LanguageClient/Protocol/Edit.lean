import LanguageClient.Protocol.Basic

/-! Edits of a workspace: of its texts, and of its files. -/

set_option autoImplicit false
namespace LanguageClient.Protocol

open Schema (required optional defaulted)

def changedTextDocument : Schema :=
  .record "OptionalVersionedTextDocumentIdentifier"
    [required "uri" .uri, nullable "version" signed]

def annotatedTextEdit : Schema :=
  .merged "AnnotatedTextEdit" [required "annotationId" .text] [textEdit]

def textDocumentEdit : Schema :=
  .record "TextDocumentEdit"
    [required "textDocument" changedTextDocument,
      required "edits" (.list (oneOf textEdit annotatedTextEdit))]

def createFile : Schema :=
  .record "CreateFile"
    [required "uri" .uri,
      optional "options" (.record "CreateFileOptions"
        [optional "overwrite" .boolean, optional "ignoreIfExists" .boolean]),
      optional "annotationId" .text]

def renameFile : Schema :=
  .record "RenameFile"
    [required "oldUri" .uri, required "newUri" .uri,
      optional "options" (.record "RenameFileOptions"
        [optional "overwrite" .boolean, optional "ignoreIfExists" .boolean]),
      optional "annotationId" .text]

def deleteFile : Schema :=
  .record "DeleteFile"
    [required "uri" .uri,
      optional "options" (.record "DeleteFileOptions"
        [optional "recursive" .boolean, optional "ignoreIfNotExists" .boolean,
          optional "annotationId" .text])]

def fileOperation : Schema :=
  .tagged "ResourceOp" "kind" [("create", createFile), ("rename", renameFile), ("delete", deleteFile)]

def documentChanges : Schema :=
  .untagged "DocumentChanges"
    [.list textDocumentEdit,
      .list (.untagged "DocumentChangeOperation" [fileOperation, textDocumentEdit])]

def changeAnnotation : Schema :=
  .record "ChangeAnnotation"
    [required "label" .text, optional "needsConfirmation" .boolean, optional "description" .text]

def workspaceEdit : Schema :=
  .record "WorkspaceEdit"
    [defaulted "changes" (.map true (.list textEdit)), optional "documentChanges" documentChanges,
      optional "changeAnnotations" (.map false changeAnnotation)]

end LanguageClient.Protocol
