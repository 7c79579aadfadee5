import IssueRelay.Cache.Operation
import IssueRelay.Config.Load
import IssueRelay.Document.Store
import IssueRelay.Remote.Fetch
import IssueRelay.Token

/-!
# The language server

What the server of an editor knows, and what it brings about outside of itself. Everything that
takes time, the passes of an engine over a document and the fetches from an issue server, is begun
by an effect and ends by an event of its own.
-/

namespace IssueRelay

/-- What finds issues in documents: a program, or something in the host of the server. -/
inductive Engine
  | program (analyzer : Analyzer)
  | embedded
  deriving DecidableEq, Repr

/-- A pass of an engine over a document that has not ended. `tracked` says whether there was a
binding when it began. -/
structure Pass where
  number : Nat
  document : Document
  tracked : Bool
  deriving DecidableEq, Repr

/-- What a fetch is for: the issues known from earlier analyses of a file, which is analyzed
afterwards, or a refresh of taint issues. -/
inductive FetchPurpose
  | history (file : Url) (path : String)
  | refresh (generation : Nat)
  deriving DecidableEq, Repr

/-- A fetch that has not ended. -/
structure OpenFetch where
  number : Nat
  purpose : FetchPurpose
  deriving DecidableEq, Repr

/-- What a language server knows. Passes and fetches are numbered in the order they begin. -/
structure LanguageServer where
  root : Option FilePath
  binding : Option Binding
  engine : Engine
  documents : DocumentStore
  debouncer : Debouncer Unit
  history : History
  cache : Cache
  passes : List Pass
  nextPass : Nat
  fetches : List OpenFetch
  nextFetch : Nat

namespace LanguageServer

/-- What the server brings about outside of itself. -/
inductive Effect
  | publish (file : Url) (diagnostics : List Diagnostic)
  | announceSecret
  | greet (isBound : Bool)
  | beginFetch (number : Nat) (endpoint : Endpoint) (server : Binding) (path : String)
  | beginPass (pass : Pass) (engine : Engine)
  | remark (note : Cache.Note)
  deriving Repr

/-- A server that nothing has happened to. -/
def initial : LanguageServer where
  root := none
  binding := none
  engine := .program .none
  documents := .empty
  debouncer := .withDelay Debouncer.standardDelay
  history := .empty
  cache := .empty
  passes := []
  nextPass := 0
  fetches := []
  nextFetch := 0

/-- The document of an open file. -/
def document? (server : LanguageServer) (file : Url) : Option Document :=
  server.documents.snapshot? server.root file

/-- The greeting that the editor logs. -/
def greeting (isBound : Bool) : String :=
  "hansei-lsp initialized (" ++ (if isBound then "bound to server" else "standalone") ++ ")"

end LanguageServer
end IssueRelay
