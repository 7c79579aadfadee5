import IssueRelay.Session.Params

/-!
# Shapes of requests

Requests that editors may make and that the server does not support: their parameters are read all
the same, so that malformed ones are told apart.
-/

namespace IssueRelay.Session

open Json

/-- Whether a value has a shape. -/
abbrev Shape :=
  Json → Bool

namespace Shape

/-- What a reader accepts. -/
def of {α : Type} (read : Reader α) : Shape :=
  fun json => (read json).isSome

/-- A field of a record: its name, its shape, and whether it may be left out. -/
structure Field where
  name : String
  shape : Shape
  optional : Bool

/-- A field that has to be there. -/
def Field.needed (name : String) (shape : Shape) : Field :=
  { name, shape, optional := false }

/-- A field that may be left out or null. -/
def Field.free (name : String) (shape : Shape) : Field :=
  { name, shape, optional := true }

/-- Whether what is given for a field has its shape. -/
def Field.accepts (field : Field) (given : Option Json) : Bool :=
  match given with
  | none => field.optional
  | some json => (field.optional && json matches .null) || field.shape json

/-- Whether what is given for fields has their shapes. -/
def accepts (fields : List Field) (given : Option Fields) : Bool :=
  given.any fun given => fields.all fun field => field.accepts (given field.name)

/-- A record with its array form. -/
def record (fields : List Field) : Shape := fun json =>
  accepts fields (fields? (fields.map Field.name) fields.length json)

/-- A record that shares its object with tokens of progress. -/
def openRecord (fields : List Field) : Shape := fun json =>
  accepts fields (withTokens? (fields.map Field.name) json)

/-- A list. -/
def list (shape : Shape) : Shape :=
  of (list? fun json => if shape json then some () else none)

/-- Anything. -/
def any : Shape :=
  fun _ => true

/-- A text. -/
def text : Shape :=
  of text?

/-- A number, whole or not. -/
def number : Shape
  | .int _ | .real _ => true
  | _ => false

/-- A file. -/
def file : Field :=
  .needed "textDocument" (of file?)

/-- A position in a file. -/
def position : Field :=
  .needed "position" (of Position.read?)

/-- A span of a file. -/
def span : Field :=
  .needed "range" (of Span.read?)

/-- A request about a place in a file. -/
def place : Shape :=
  openRecord [file, position]

/-- A request about a file. -/
def wholeFile : Shape :=
  openRecord [file]

/-- A command of the editor. -/
def command : Shape :=
  record [.needed "title" text, .needed "command" text, .free "arguments" (list any)]

/-- A symbol with callers or relatives. -/
def hierarchyItem (tags : Shape) : Shape :=
  record [.needed "name" text, .needed "kind" (of int32?), .free "tags" tags, .free "detail" text,
    .needed "uri" (of Url.read?), span, .needed "selectionRange" (of Span.read?),
    .free "data" any]

/-- A symbol with callers. -/
def call : Shape :=
  openRecord [.needed "item" (hierarchyItem (list (of int32?)))]

/-- A symbol with relatives. -/
def kin : Shape :=
  openRecord [.needed "item" (hierarchyItem (of int32?))]

/-- How a text is to be laid out. Further properties are truth values, numbers or texts. -/
def layout : Shape
  | .obj members =>
    let given := fields? ["tabSize", "insertSpaces"] 2 (.obj members)
    accepts [.needed "tabSize" (of word32?), .needed "insertSpaces" (of truth?)] given
      && members.all fun (_, json) => json matches .bool _ | .str _ || of int32? json
  | _ => false

/-- Files that are to be created or deleted. -/
def files : Shape :=
  record [.needed "files" (list (record [.needed "uri" text]))]

/-- Files that are to be renamed. -/
def renamings : Shape :=
  record [.needed "files" (list (record [.needed "oldUri" text, .needed "newUri" text]))]

/-- A colour. -/
def color : Shape :=
  record (["red", "green", "blue", "alpha"].map fun name => .needed name number)

/-- The point at which values are asked for. -/
def stop : Shape :=
  record [.needed "frameId" (of int32?), .needed "stoppedLocation" (of Span.read?)]

/-- What has made the editor ask for completions. -/
def completionTrigger : Shape :=
  record [.needed "triggerKind" (of int32?), .free "triggerCharacter" text]

/-- What has made the editor ask for a signature. -/
def signatureTrigger : Shape :=
  record [.needed "triggerKind" (of int32?), .free "triggerCharacter" text,
    .needed "isRetrigger" (of truth?), .free "activeSignatureHelp" any]

/-- Answers that the editor has had before. -/
def previousResult : Shape :=
  record [.needed "uri" (of Url.read?), .needed "value" text]

/-- The requests that are not supported, with the shapes of their parameters. -/
def ofRequest : List (String × Shape) :=
  [("textDocument/declaration", place), ("textDocument/definition", place),
    ("textDocument/typeDefinition", place), ("textDocument/implementation", place),
    ("textDocument/references", openRecord [file, position,
      .needed "context" (record [.needed "includeDeclaration" (of truth?)])]),
    ("textDocument/prepareCallHierarchy", place),
    ("callHierarchy/incomingCalls", call), ("callHierarchy/outgoingCalls", call),
    ("textDocument/prepareTypeHierarchy", place),
    ("typeHierarchy/supertypes", kin), ("typeHierarchy/subtypes", kin),
    ("textDocument/documentHighlight", place), ("textDocument/documentLink", wholeFile),
    ("documentLink/resolve", record [span, .free "target" (of Url.read?), .free "tooltip" text,
      .free "data" any]),
    ("textDocument/hover", place), ("textDocument/codeLens", wholeFile),
    ("codeLens/resolve", record [span, .free "command" command, .free "data" any]),
    ("textDocument/foldingRange", wholeFile),
    ("textDocument/selectionRange",
      openRecord [file, .needed "positions" (list (of Position.read?))]),
    ("textDocument/documentSymbol", wholeFile),
    ("textDocument/semanticTokens/full", wholeFile),
    ("textDocument/semanticTokens/full/delta",
      openRecord [file, .needed "previousResultId" text]),
    ("textDocument/semanticTokens/range", openRecord [file, span]),
    ("textDocument/inlineValue", openRecord [file, span, .needed "context" stop]),
    ("textDocument/inlayHint", openRecord [file, span]),
    ("inlayHint/resolve", record [position, .needed "label" any, .free "kind" (of int32?),
      .free "textEdits" (list any), .free "tooltip" any, .free "paddingLeft" (of truth?),
      .free "paddingRight" (of truth?), .free "data" any]),
    ("textDocument/moniker", place),
    ("textDocument/completion",
      openRecord [file, position, .free "context" completionTrigger]),
    ("completionItem/resolve", openRecord [.needed "label" text]),
    ("textDocument/diagnostic",
      openRecord [file, .free "identifier" text, .free "previousResultId" text]),
    ("workspace/diagnostic",
      openRecord [.free "identifier" text, .needed "previousResultIds" (list previousResult)]),
    ("textDocument/signatureHelp",
      openRecord [file, position, .free "context" signatureTrigger]),
    ("codeAction/resolve", openRecord [.needed "title" text, .free "kind" text,
      .free "diagnostics" (list (of Diagnostic.read?)), .free "command" command,
      .free "isPreferred" (of truth?)]),
    ("textDocument/documentColor", wholeFile),
    ("textDocument/colorPresentation", openRecord [file, .needed "color" color, span]),
    ("textDocument/formatting", openRecord [file, .needed "options" layout]),
    ("textDocument/rangeFormatting", openRecord [file, span, .needed "options" layout]),
    ("textDocument/onTypeFormatting",
      openRecord [file, position, .needed "ch" text, .needed "options" layout]),
    ("textDocument/rename", openRecord [file, position, .needed "newName" text]),
    ("textDocument/prepareRename", record [file, position]),
    ("textDocument/linkedEditingRange", place),
    ("textDocument/willSaveWaitUntil", record [file, .needed "reason" (of int32?)]),
    ("workspace/symbol", openRecord [.needed "query" text]),
    ("workspaceSymbol/resolve",
      openRecord [.needed "name" text, .needed "kind" (of int32?), .needed "location" any]),
    ("workspace/willCreateFiles", files), ("workspace/willRenameFiles", renamings),
    ("workspace/willDeleteFiles", files),
    ("workspace/executeCommand",
      openRecord [.needed "command" text, .free "arguments" (list any)])]

end Shape

/-- The notifications of which nothing is done. -/
def ignoredNotifications : List String :=
  ["$/cancelRequest", "textDocument/willSave", "workspace/didChangeWorkspaceFolders",
    "workspace/didCreateFiles", "workspace/didRenameFiles", "workspace/didDeleteFiles",
    "workspace/didChangeWatchedFiles"]

end IssueRelay.Session
