import IssueRelay.CodeAction
import IssueRelay.LanguageServer.Pass

/-!
# Events

What editors, clocks, engines and issue servers do to the language server. An opened file is
analyzed at once, after the issues known from earlier analyses have been fetched if there is a
binding; a changed or saved one when it has been quiet for a while; and all of them when the
configuration has changed.
-/

namespace IssueRelay.LanguageServer

open Transition

/-- Runs the tasks whose deadline has come. -/
def fireTimers : Transition LanguageServer Effect := fun server =>
  let (debouncer, due) := server.debouncer.fire
  each (fun timer => analyze timer.file) due { server with debouncer }

/-- Makes a file wait for its analysis. -/
def waitFor (file : Url) (server : LanguageServer) : LanguageServer :=
  { server with debouncer := server.debouncer.schedule file () }

/-- Makes files wait for their analysis, and analyzes those that need not wait. -/
def schedule (files : List Url) : Transition LanguageServer Effect :=
  (change fun server => files.foldl (fun server file => server.waitFor file) server).andThen
    fireTimers

/-- A file has been opened. -/
def openDocument (file : Url) (version : Int32) (content : String) :
    Transition LanguageServer Effect :=
  (change fun server =>
    { server with documents := server.documents.openText file version content }).andThen <|
  inspect fun server =>
    match server.binding, server.document? file with
    | some binding, some document =>
      let path := document.relativePath
      beginFetch (.history file path) .tracking binding path
    | _, _ => analyze file

/-- A file has been changed: its text is the last of those given. An outdated change counts for
nothing. -/
def changeDocument (file : Url) (version : Int32) (contents : List String) :
    Transition LanguageServer Effect :=
  inspect fun server =>
    match contents.getLast?.bind (server.documents.update? file version) with
    | some documents =>
      (change fun server => { server with documents }).andThen (schedule [file])
    | none => idle

/-- A file has been saved. -/
def saveDocument (file : Url) : Transition LanguageServer Effect :=
  schedule [file]

/-- A file has been closed. -/
def closeDocument (file : Url) : Transition LanguageServer Effect :=
  (change fun server =>
    { server with
      debouncer := server.debouncer.cancel file
      documents := server.documents.close file }).andThen
    (onCache (Cache.clear file))

/-- What the user of the machine says about tokens: in the environment, and in the file of
credentials. -/
structure Tokens where
  environment : Option String
  credentials : Option String

/-- The binding that a configuration describes, with a token from elsewhere if it has none. A
server without a usable URL is no server. -/
def bindingOf? (config : Config) (tokens : Tokens) : Option Binding := do
  let binding ← (← config.server).binding.toOption
  return { binding with
    token := binding.token <|> pickToken? tokens.environment tokens.credentials }

/-- A configuration takes effect. -/
def configure (config : Config) (tokens : Tokens) (server : LanguageServer) : LanguageServer :=
  { server with
    cache := server.cache.seedSecretSeen config.secretSeen
    debouncer := server.debouncer.setDelay config.analyzer.debounce
    engine := .program ⟨config.analyzer.command⟩
    binding := bindingOf? config tokens }

/-- The editor is ready. -/
def start (config : Config) (tokens : Tokens) : Transition LanguageServer Effect :=
  (change (configure config tokens)).andThen <|
    inspect fun server => emit [.greet server.binding.isSome]

/-- The configuration has changed. -/
def reconfigure (config : Config) (tokens : Tokens) : Transition LanguageServer Effect :=
  (change (configure config tokens)).andThen <|
    inspect fun server => schedule ((server.documents.snapshots server.root).map Document.uri)

/-- Time has passed. -/
def passTime (milliseconds : Nat) : Transition LanguageServer Effect :=
  (change fun server =>
    { server with debouncer := server.debouncer.advance milliseconds }).andThen fireTimers

/-- The fetch with a number, if it has not ended. -/
def fetch? (server : LanguageServer) (number : Nat) : Option OpenFetch :=
  server.fetches.find? (·.number = number)

/-- Forgets a fetch. -/
def closeFetch (number : Nat) (server : LanguageServer) : LanguageServer :=
  { server with fetches := server.fetches.filter (·.number ≠ number) }

/-- Learns the issues of a file known from earlier analyses, if they could be fetched. -/
def learn (path : String) (answer : Option (List ServerIssue)) (server : LanguageServer) :
    LanguageServer :=
  match answer with
  | some issues => { server with history := server.history.update path issues }
  | none => server

/-- The issues of a file known from earlier analyses have been fetched, or not: the file is
analyzed. -/
def endHistory (number : Nat) (answer : Option (List ServerIssue)) :
    Transition LanguageServer Effect :=
  inspect fun server =>
    match server.fetch? number with
    | some { purpose := .history file path, .. } =>
      (change (closeFetch number)).andThen <| (change (learn path answer)).andThen (analyze file)
    | _ => idle

/-- A commit that has waited for a refresh is made, and its file settled. -/
def resume (pending : WaitingCommit) : Transition LanguageServer Effect :=
  (onCache (Cache.resume pending)).andThen (settle pending.file)

/-- A refresh of taint issues has ended, and the passes that have waited for it end too. -/
def endRefresh (number : Nat) (answer : Option (List TaintIssue)) :
    Transition LanguageServer Effect :=
  inspect fun server =>
    match server.fetch? number with
    | some { purpose := .refresh generation, .. } =>
      match server.cache.running.find? (·.generation = generation) with
      | some refresh =>
        (change (closeFetch number)).andThen <|
          (onCache (Cache.endRefresh refresh answer)).andThen <|
          each resume (server.cache.waitingFor generation)
      | none => change (closeFetch number)
    | _ => idle

/-- The host puts an engine of its own in place. -/
def embedEngine (server : LanguageServer) : LanguageServer :=
  { server with engine := .embedded }

/-- The editor opens a workspace. -/
def openWorkspace (root : Option FilePath) (server : LanguageServer) : LanguageServer :=
  { server with root := root <|> server.root }

/-- The actions for diagnostics of a file. -/
def codeActions (server : LanguageServer) (file : Url) (diagnostics : List Diagnostic) :
    List CodeAction :=
  CodeAction.forDiagnostics server.cache server.binding file diagnostics

end IssueRelay.LanguageServer
