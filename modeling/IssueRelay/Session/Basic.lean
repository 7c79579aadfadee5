import IssueRelay.LanguageServer.Event
import IssueRelay.CommandLine
import IssueRelay.Session.Shape

/-!
# Sessions

A session with an editor goes through three phases: before it is initialized, while it is, and after
it has been shut down. Messages in the wrong phase are refused if they are requests and dropped if
they are not, and so are messages that cannot be read.
-/

namespace IssueRelay

open Transition

/-- The phases of a session. -/
inductive Phase
  | fresh
  | running
  | over
  deriving DecidableEq, Repr

/-- Why a request is refused. -/
inductive Refusal
  | notInitialized
  | invalidRequest
  | unknownMethod
  | invalidParams
  deriving DecidableEq, Repr

/-- The number by which editors know a refusal. -/
def Refusal.code : Refusal → Int
  | .notInitialized => -32002
  | .invalidRequest => -32600
  | .unknownMethod => -32601
  | .invalidParams => -32602

/-- What an editor is told about a refusal. -/
def Refusal.message : Refusal → String
  | .notInitialized => "Server not initialized"
  | .invalidRequest => "Invalid request"
  | .unknownMethod => "Method not found"
  | .invalidParams => "Invalid params"

/-- What a session finds on its machine: files, the path of a configuration that the command line
names, and tokens. -/
structure Surroundings where
  files : FileSystem
  configPath : Option FilePath
  tokens : LanguageServer.Tokens

/-- A session. -/
structure Session where
  phase : Phase
  server : LanguageServer

namespace Session

/-- A session that has not begun. -/
def initial : Session where
  phase := .fresh
  server := .initial

/-- Something happens to the server of a session. -/
def onServer (step : Transition LanguageServer LanguageServer.Effect) :
    Transition Session LanguageServer.Effect :=
  within Session.server (fun session server => { session with server }) step

/-- A method that editors may name: whether it asks for an answer, and how its parameters are read.
The parameters may be missing. -/
structure Method where
  isRequest : Bool
  read : Option Json → Option Message

/-- A method whose parameters have to be there. -/
def Method.withParams (isRequest : Bool) (read : Json.Reader Message) : Method where
  isRequest := isRequest
  read params := params.bind read

/-- The methods that do something. -/
def supportedMethods : List (String × Method) :=
  [("initialize", .withParams true introduce?),
    ("initialized", .withParams false ready?),
    ("shutdown", { isRequest := true,
                   read := fun params => if params.isNone then some .shutdown else none }),
    ("textDocument/didOpen", .withParams false openDocument?),
    ("textDocument/didChange", .withParams false changeDocument?),
    ("textDocument/didSave", .withParams false saveDocument?),
    ("textDocument/didClose", .withParams false closeDocument?),
    ("workspace/didChangeConfiguration", .withParams false changeConfiguration?),
    ("textDocument/codeAction", .withParams true codeAction?)]

/-- The method with a name. -/
def method? (name : String) : Option Method :=
  supportedMethods.lookup name
    <|> (Shape.ofRequest.lookup name).map (fun shape =>
      .withParams true fun json => if shape json then some .unsupported else none)
    <|> if ignoredNotifications.contains name then
        some { isRequest := false, read := fun _ => some .unsupported }
      else none

/-- What the server says it can do. -/
def capabilities : Json :=
  .record [
    ("textDocumentSync", .record [("openClose", .bool true), ("change", .int 1),
      ("save", .record [("includeText", .bool false)])]),
    ("codeActionProvider", .record [("codeActionKinds", .arr [.text CodeAction.kind])])]

/-- What the server says it is. -/
def serverInfo : Json :=
  .record [("name", .text CommandLine.programName), ("version", .text CommandLine.programVersion)]

/-- The answer to the first message. -/
def introduction : Json :=
  .record [("capabilities", capabilities), ("serverInfo", serverInfo)]

/-- The answer to a request for code actions. -/
def actionsAnswer : List CodeAction → Json
  | [] => .null
  | actions => .ofList CodeAction.toJson actions

/-- What the server answers to a message that it has read. -/
def answer (server : LanguageServer) : Message → Except Refusal Json
  | .introduce _ => .ok introduction
  | .codeAction file diagnostics => .ok (actionsAnswer (server.codeActions file diagnostics))
  | .unsupported => .error .unknownMethod
  | _ => .ok .null

/-- What a message that has been read does. -/
def act (surroundings : Surroundings) :
    Message → Transition LanguageServer LanguageServer.Effect
  | .introduce root => change (·.openWorkspace root)
  | .ready =>
    inspect fun server => LanguageServer.start (configOf server) surroundings.tokens
  | .changeConfiguration =>
    inspect fun server => LanguageServer.reconfigure (configOf server) surroundings.tokens
  | .openDocument file version content => LanguageServer.openDocument file version content
  | .changeDocument file version contents => LanguageServer.changeDocument file version contents
  | .saveDocument file => LanguageServer.saveDocument file
  | .closeDocument file => LanguageServer.closeDocument file
  | .shutdown | .codeAction .. | .unsupported => idle
where
  /-- The configuration that is in force for the workspace. -/
  configOf (server : LanguageServer) : Config :=
    (Config.ofWorkspace surroundings.files surroundings.configPath server.root).config

/-- Why a method may not be named in a phase. -/
def phaseRefusal? (name : String) : Phase → Option Refusal
  | .fresh => if name = "initialize" then none else some .notInitialized
  | .running => if name = "initialize" then some .invalidRequest else none
  | .over => some .invalidRequest

/-- The phase after a method has been named that may be, whether its parameters can be read or
not. -/
def phaseAfter (name : String) (isReadable : Bool) (phase : Phase) : Phase :=
  if name = "shutdown" then .over
  else if name = "initialize" && isReadable then .running
  else phase

/-- What naming a method does, and what it is answered if an answer is asked for. -/
def receive (surroundings : Surroundings) (wantsAnswer : Bool) (name : String)
    (params : Option Json) (session : Session) :
    Session × List LanguageServer.Effect × Except Refusal Json :=
  match method? name with
  | none => (session, [], .error .unknownMethod)
  | some method =>
    match phaseRefusal? name session.phase with
    | some refusal => (session, [], .error refusal)
    | none =>
      let message := if method.isRequest = wantsAnswer then method.read params else none
      let session := { session with phase := phaseAfter name message.isSome session.phase }
      match message with
      | some message =>
        let (after, effects) := onServer (act surroundings message) session
        (after, effects, answer session.server message)
      | none =>
        let refusal := if method.isRequest = wantsAnswer then .invalidParams else .invalidRequest
        (session, [], .error refusal)

end Session

namespace LanguageServer.Effect

/-- What the editor is told by an effect: a method and its parameters. -/
def notification? : Effect → Option (String × Json)
  | .publish file diagnostics =>
    some ("textDocument/publishDiagnostics",
      .record [("uri", file.toJson), ("diagnostics", .ofList Diagnostic.toJson diagnostics)])
  | .announceSecret => some ("hansei/showFirstSecretDetectionNotification", .null)
  | .greet isBound =>
    some ("window/logMessage", .record [("type", .int 3), ("message", .text (greeting isBound))])
  | .beginFetch .. | .beginPass .. | .remark _ => none

end LanguageServer.Effect
end IssueRelay
