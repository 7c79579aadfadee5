import IssueRelay.Diagnostic.Record
import IssueRelay.Json.Record
import IssueRelay.Url.FilePath

/-!
# Parameters of messages

What editors say along with the messages that the server understands. Every record may also be
given as an array of all its fields, except for those that share their object with the tokens of
progress.
-/

namespace IssueRelay.Session

open Json

/-- A message that the server understands. `unsupported` is one that is well formed and of which
nothing is done. -/
inductive Message
  | introduce (root : Option FilePath)
  | ready
  | shutdown
  | openDocument (file : Url) (version : Int32) (content : String)
  | changeDocument (file : Url) (version : Int32) (contents : List String)
  | saveDocument (file : Url)
  | closeDocument (file : Url)
  | changeConfiguration
  | codeAction (file : Url) (diagnostics : List Diagnostic)
  | unsupported

/-- A file as the object that identifies it. -/
def file? : Reader Url := fun json => do
  let field ← fields? ["uri"] 1 json
  required? Url.read? (field "uri")

/-- A number or text by which progress is reported. -/
def progressToken? : Reader DiagnosticCode :=
  DiagnosticCode.read?

/-- Objects alone, whose fields share their place with the tokens of progress. -/
def withTokens? (names : List String) : Reader Fields
  | .obj members => do
    let tokens := ["workDoneToken", "partialResultToken"]
    let field ← fields? (names ++ tokens) 0 (.obj members)
    for name in tokens do
      let _ ← option? progressToken? (field name)
    return field
  | _ => none

/-- A folder of a workspace. -/
def folder? : Reader Url := fun json => do
  let field ← fields? ["uri", "name"] 2 json
  let _ ← required? text? (field "name")
  required? Url.read? (field "uri")

/-- The name of the editor. -/
def clientInfo? : Reader String := fun json => do
  let field ← fields? ["name", "version"] 2 json
  let _ ← option? text? (field "version")
  required? text? (field "name")

/-- How much the editor wants to be told. -/
def trace? : Reader String := fun json => do
  let value ← text? json
  if ["off", "messages", "verbose"].contains value then some value else none

/-- An object of any content. -/
def object? : Reader Unit
  | .obj _ => some ()
  | _ => none

/-- What an editor can do: an object whose sections are objects. -/
def capabilities? : Reader Unit := fun json => do
  object? json
  let sections := ["workspace", "textDocument", "notebookDocument", "window", "general"]
  let field ← fields? sections 0 json
  for name in sections do
    let _ ← option? object? (field name)

/-- The fields of the first message. -/
def introductionNames : List String :=
  ["processId", "rootPath", "rootUri", "initializationOptions", "capabilities", "trace",
    "workspaceFolders", "clientInfo", "locale"]

/-- The first message. The root of the workspace is its first folder, or else the root that is
named, if they are files. -/
def introduce? : Reader Message := fun json => do
  let field ← fields? introductionNames 9 json
  let _ ← option? word32? (field "processId")
  let _ ← option? text? (field "rootPath")
  let rootUri ← option? Url.read? (field "rootUri")
  required? capabilities? (field "capabilities")
  let _ ← option? trace? (field "trace")
  let folders ← option? (list? folder?) (field "workspaceFolders")
  let _ ← option? clientInfo? (field "clientInfo")
  let _ ← option? text? (field "locale")
  let first := (folders.getD []).head?
  return .introduce (first.bind Url.filePath? <|> rootUri.bind Url.filePath?)

/-- The message that the editor is ready. -/
def ready? : Reader Message
  | .obj _ | .arr [] => some .ready
  | _ => none

/-- The message that a file has been opened. -/
def openDocument? : Reader Message := fun json => do
  let field ← fields? ["textDocument"] 1 json
  let item ← required? (fields? ["uri", "languageId", "version", "text"] 4) (field "textDocument")
  let _ ← required? text? (item "languageId")
  return .openDocument (← required? Url.read? (item "uri")) (← required? int32? (item "version"))
    (← required? text? (item "text"))

/-- The new text of a file. The part that it is said to replace is not looked at. -/
def change? : Reader String := fun json => do
  let field ← fields? ["range", "rangeLength", "text"] 3 json
  let _ ← option? Span.read? (field "range")
  let _ ← option? word32? (field "rangeLength")
  required? text? (field "text")

/-- The message that a file has been changed. -/
def changeDocument? : Reader Message := fun json => do
  let field ← fields? ["textDocument", "contentChanges"] 2 json
  let item ← required? (fields? ["uri", "version"] 2) (field "textDocument")
  return .changeDocument (← required? Url.read? (item "uri"))
    (← required? int32? (item "version")) (← required? (list? change?) (field "contentChanges"))

/-- The message that a file has been saved. -/
def saveDocument? : Reader Message := fun json => do
  let field ← fields? ["textDocument", "text"] 2 json
  let _ ← option? text? (field "text")
  return .saveDocument (← required? file? (field "textDocument"))

/-- The message that a file has been closed. -/
def closeDocument? : Reader Message := fun json => do
  let field ← fields? ["textDocument"] 1 json
  return .closeDocument (← required? file? (field "textDocument"))

/-- The message that the configuration has changed. -/
def changeConfiguration? : Reader Message := fun json => do
  let field ← fields? ["settings"] 1 json
  let _ ← required? some (field "settings")
  return .changeConfiguration

/-- The diagnostics that actions are asked for. -/
def actionContext? : Reader (List Diagnostic) := fun json => do
  let field ← fields? ["diagnostics", "only", "triggerKind"] 3 json
  let _ ← option? (list? text?) (field "only")
  let _ ← option? int32? (field "triggerKind")
  required? (list? Diagnostic.read?) (field "diagnostics")

/-- The request for code actions. -/
def codeAction? : Reader Message := fun json => do
  let field ← withTokens? ["textDocument", "range", "context"] json
  let _ ← required? Span.read? (field "range")
  return .codeAction (← required? file? (field "textDocument"))
    (← required? actionContext? (field "context"))

end IssueRelay.Session
