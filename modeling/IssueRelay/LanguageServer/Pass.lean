import IssueRelay.LanguageServer.Basic

/-!
# Passes

A pass starts with the present text of a file. If there is a binding, the taint issues of the file
are refreshed beside it. A pass without an engine ends at once and successfully, so that the taint
issues alone are shown. Any other reports what its engine finds and ends as the engine does. When a
pass has ended and its file has been closed meanwhile, the file is forgotten.
-/

namespace IssueRelay.LanguageServer

open Transition

/-- Begins a fetch. -/
def beginFetch (purpose : FetchPurpose) (endpoint : Endpoint) (binding : Binding)
    (path : String) : Transition LanguageServer Effect := fun server =>
  ({ server with
      fetches := server.fetches ++ [{ number := server.nextFetch, purpose }]
      nextFetch := server.nextFetch + 1 },
    [.beginFetch server.nextFetch endpoint binding path])

/-- What an effect of the cache means to the server. -/
def relay : Cache.Effect → Transition LanguageServer Effect
  | .publish file diagnostics => emit [.publish file diagnostics]
  | .announceSecret => emit [.announceSecret]
  | .beginFetch refresh binding path =>
    beginFetch (.refresh refresh.generation) .taint binding path
  | .remark note => emit [.remark note]
  | .numbered _ | .returned _ => idle

/-- Something happens to the cache. -/
def onCache (step : Transition Cache Cache.Effect) : Transition LanguageServer Effect :=
  fun server =>
    let (cache, effects) := step server.cache
    each relay effects { server with cache }

/-- Forgets a file if it is not open. -/
def settle (file : Url) : Transition LanguageServer Effect :=
  inspect fun server =>
    if server.documents.contains file then idle else onCache (Cache.clear file)

/-- A pass over a file succeeds; the file is settled when its issues have been committed. -/
def succeed (file : Url) (ticket : Nat) : Transition LanguageServer Effect :=
  inspect fun server =>
    (onCache (Cache.succeed file ticket)).andThen
      (if server.cache.isUpdating file then idle else settle file)

/-- A pass over a file fails. -/
def fail (file : Url) : Transition LanguageServer Effect :=
  (onCache (Cache.fail file)).andThen (settle file)

/-- Hands a pass to the engine; without an engine it succeeds. -/
def runPass (pass : Pass) : Transition LanguageServer Effect :=
  inspect fun server =>
    if server.engine = .program .none then succeed pass.document.uri pass.number
    else
      (change fun server => { server with passes := server.passes ++ [pass] }).andThen
        (emit [.beginPass pass server.engine])

/-- Begins a pass over a document. -/
def beginPass (document : Document) : Transition LanguageServer Effect :=
  inspect fun server =>
    let pass := { number := server.nextPass, document, tracked := server.binding.isSome }
    (change fun server => { server with nextPass := server.nextPass + 1 }).andThen <|
      (onCache (Cache.start document.uri)).andThen <|
      (match server.binding with
        | some binding => onCache (Cache.schedule binding [document])
        | none => idle).andThen (runPass pass)

/-- Analyzes a file, if it is open. -/
def analyze (file : Url) : Transition LanguageServer Effect :=
  inspect fun server =>
    match server.document? file with
    | some document => beginPass document
    | none => idle

/-- The pass with a number, if it has not ended. -/
def pass? (server : LanguageServer) (number : Nat) : Option Pass :=
  server.passes.find? (·.number = number)

/-- A pass reports an issue. If it began with a binding, its issues are matched with those known
from earlier analyses. -/
def reportIssue (number : Nat) (issue : Issue) : Transition LanguageServer Effect :=
  inspect fun server =>
    match server.pass? number with
    | some pass =>
      let { document, tracked, .. } := pass
      onCache <|
        if tracked then
          Cache.reportTracked document issue (server.history.get document.relativePath)
        else Cache.report document issue
    | none => idle

/-- A pass ends. -/
def endPass (number : Nat) (succeeded : Bool) : Transition LanguageServer Effect :=
  inspect fun server =>
    match server.pass? number with
    | some pass =>
      (change fun server =>
        { server with passes := server.passes.filter (·.number ≠ number) }).andThen <|
      if succeeded then succeed pass.document.uri number else fail pass.document.uri
    | none => idle

/-- Carries a pass out with what its engine has been told: the issues are reported one after the
other, and then the pass ends with the outcome. -/
def carryOut (number : Nat) (told : List Issue × Except AnalysisError Unit) :
    Transition LanguageServer Effect :=
  (each (reportIssue number) told.1).andThen (endPass number told.2.isOk)

end IssueRelay.LanguageServer
