import IssueRelay.Cache.Basic
import IssueRelay.Diagnostic.Record

/-!
# Code actions

What an editor offers on the diagnostics of a file: to show every location of an issue that has
flows, and to open an issue that the server knows. A diagnostic that no longer belongs to an issue
gets no action.
-/

namespace IssueRelay

/-- A command that an editor is to run. -/
inductive EditorCommand
  | showAllLocations (uri : Url) (ruleKey message : String) (range : TextRange) (flows : List Flow)
  | openInServer (ruleKey : String) (page : Url)
  deriving Repr

/-- A command that is offered on a diagnostic. -/
structure CodeAction where
  command : EditorCommand
  diagnostic : Diagnostic
  deriving Repr

namespace EditorCommand

/-- The name by which the editor knows a command. -/
def name : EditorCommand → String
  | .showAllLocations .. => "hansei.showAllLocations"
  | .openInServer .. => "hansei.openIssueInServer"

/-- What the editor shows for a command. -/
def title : EditorCommand → String
  | .showAllLocations _ ruleKey .. => "Show all locations for issue '" ++ ruleKey ++ "'"
  | .openInServer ruleKey _ => "Open '" ++ ruleKey ++ "' in server"

/-- The one argument of a command. -/
def argument : EditorCommand → Json
  | .showAllLocations uri ruleKey message range flows =>
    .record [("uri", uri.toJson), ("ruleKey", .text ruleKey), ("message", .text message),
      ("range", range.toJson), ("flows", .ofList Flow.toJson flows)]
  | .openInServer _ page => page.toJson

/-- A command in JSON. -/
def toJson (command : EditorCommand) : Json :=
  .record [("title", .text command.title), ("command", .text command.name),
    ("arguments", .arr [command.argument])]

end EditorCommand

namespace CodeAction

/-- The kind of the actions that are offered. -/
def kind : String :=
  "quickfix"

/-- A code action in JSON. -/
def toJson (action : CodeAction) : Json :=
  .record [("title", .text action.command.title), ("kind", .text kind),
    ("diagnostics", .arr [action.diagnostic.toJson]), ("command", action.command.toJson)]

/-- The command that shows the locations of an issue, if it has flows. -/
def locationsCommand? (uri : Url) (ruleKey message : String) (range : TextRange)
    (flows : List Flow) : Option EditorCommand :=
  if flows.isEmpty then none else some (.showAllLocations uri ruleKey message range flows)

/-- The command that opens an issue, if there is a server that has a page for it. -/
def openCommand? (server : Option Binding) (ruleKey : String) (issueKey : Option String) :
    Option EditorCommand := do
  let page ← ((← server).issueUrl (← issueKey)).toOption
  return .openInServer ruleKey page

/-- The commands for one diagnostic: those of the local issue that it is about, else those of the
taint issue. -/
def commandsFor (cache : Cache) (server : Option Binding) (uri : Url) (diagnostic : Diagnostic) :
    List EditorCommand :=
  match cache.issueFor? uri diagnostic with
  | some { issue, status, .. } =>
    (locationsCommand? uri issue.ruleKey issue.message issue.range issue.flows).toList
      ++ (openCommand? server issue.ruleKey status.key).toList
  | none =>
    match cache.taintFor? uri diagnostic with
    | some issue =>
      (locationsCommand? uri issue.ruleKey issue.message issue.range issue.flows).toList
        ++ (openCommand? server issue.ruleKey (some issue.key)).toList
    | none => []

/-- The actions for the diagnostics of a file, diagnostic by diagnostic. -/
def forDiagnostics (cache : Cache) (server : Option Binding) (uri : Url)
    (diagnostics : List Diagnostic) : List CodeAction :=
  diagnostics.flatMap fun diagnostic =>
    (commandsFor cache server uri diagnostic).map ({ command := ·, diagnostic })

end CodeAction
end IssueRelay
