import IssueRelay.Cache.Basic
import IssueRelay.Tracking

/-!
# Operations of the issue cache

Passes start, report issues one by one, and fail or succeed. A pass that succeeds while the taint
issues of its file are being refreshed waits for that refresh, so that its commit publishes both. A
file that is cleared is forgotten, and a refresh of it that is still under way comes to nothing.
-/

namespace IssueRelay.Cache

open Transition

/-- Shows an editor the given issues of a file; the first unresolved secret ever shown is announced
before. -/
def display (file : Url) (issues : IssueSet) (taint : List TaintIssue) : Transition Cache Effect :=
  fun cache =>
    let published := Effect.publish file (Diagnostic.ofIssues file issues taint)
    if issues.showsSecret && !cache.secretSeen then
      ({ cache with secretSeen := true }, [.remark .firstSecret, .announceSecret, published])
    else (cache, [published])

/-- Shows an editor what is known of a file. -/
def publish (file : Url) : Transition Cache Effect :=
  inspect fun cache => display file (cache.current file) (cache.taint.get file)

/-- Records whether a secret has been announced in an earlier session. -/
def seedSecretSeen (seen : Bool) (cache : Cache) : Cache :=
  { cache with secretSeen := cache.secretSeen || seen }

/-- Forgets everything about a file. -/
def clear (file : Url) : Transition Cache Effect :=
  (change fun cache =>
    { cache with
      registered := cache.registered.erase file
      committed := cache.committed.erase file
      inProgress := cache.inProgress.erase file
      taint := cache.taint.remove file }).andThen
    (display file ∅ [])

/-- Drops the issues reported by the pass under way. -/
def dropPass (file : Url) (cache : Cache) : Cache :=
  { cache with inProgress := cache.inProgress.erase file }

/-- A pass starts: until it reports an issue, the last completed pass stays visible. -/
def start (file : Url) : Transition Cache Effect :=
  change (dropPass file)

/-- A pass fails: the last completed pass stays what it is. -/
def fail (file : Url) : Transition Cache Effect :=
  change (dropPass file)

/-- Puts a reported issue under the next identifier. -/
def addIssue (document : Document) (issue : Issue) (cache : Cache) : Cache :=
  let found := { issue, documentVersion := document.version, status := .unknown }
  let issues := (cache.inProgress.get? document.uri).getD ∅
  { cache with
    inProgress := cache.inProgress.insert document.uri (issues.insert cache.nextId found)
    nextId := cache.nextId.next }

/-- Tracks all issues of a set, in the order of their identifiers, and gives every one the status of
the server issue it is matched with. -/
def retrack (known : List ServerIssue) (issues : IssueSet) : IssueSet :=
  let ids := issues.inOrder.map Prod.fst
  issues.takeOver ids (Tracking.track known (issues.inOrder.map fun (_, found) => found.issue))

/-- Tracks the issues of the pass under way. -/
def trackIssues (file : Url) (known : List ServerIssue) (cache : Cache) : Cache :=
  match cache.inProgress.get? file with
  | some issues =>
    { cache with inProgress := cache.inProgress.insert file (retrack known issues) }
  | none => cache

/-- Tells the reporter of the next issue its identifier. -/
def announceId : Transition Cache Effect :=
  inspect fun cache => emit [.numbered cache.nextId]

/-- A pass reports an issue. -/
def report (document : Document) (issue : Issue) : Transition Cache Effect :=
  announceId.andThen <| (change (addIssue document issue)).andThen <| publish document.uri

/-- A pass reports an issue of a file of which a server knows issues: all issues of the pass are
matched again. -/
def reportTracked (document : Document) (issue : Issue) (known : List ServerIssue) :
    Transition Cache Effect :=
  announceId.andThen <| (change (addIssue document issue)).andThen <|
    (change (trackIssues document.uri known)).andThen <| publish document.uri

/-- The issues of the pass under way become those of the last completed pass; a pass without issues
leaves none. -/
def commitIssues (file : Url) (cache : Cache) : Cache :=
  match cache.inProgress.get? file with
  | some issues =>
    { cache with
      committed := cache.committed.insert file issues
      inProgress := cache.inProgress.erase file }
  | none => { cache with committed := cache.committed.erase file }

/-- Commits the pass under way and shows the result. -/
def commit (file : Url) : Transition Cache Effect :=
  (change (commitIssues file)).andThen (publish file)

/-- A pass succeeds. -/
def succeed (file : Url) (ticket : Nat) : Transition Cache Effect :=
  inspect fun cache =>
    match cache.unfinished? file with
    | some generation => change fun cache =>
      { cache with waiting := cache.waiting ++ [{ ticket, file, generation }] }
    | none => (commit file).andThen (emit [.returned ticket])

/-- Begins a refresh of a document, unless one is under way. -/
def scheduleOne (server : Binding) (document : Document) : Transition Cache Effect :=
  fun cache =>
    if cache.isUpdating document.uri then (cache, [])
    else
      let refresh := { generation := cache.nextGeneration, file := document.uri }
      ({ cache with
          registered := cache.registered.insert refresh.file refresh.generation
          running := cache.running ++ [refresh]
          nextGeneration := cache.nextGeneration + 1 },
        [.beginFetch refresh server document.relativePath])

/-- Begins refreshes of documents. -/
def schedule (server : Binding) (documents : List Document) : Transition Cache Effect :=
  each (scheduleOne server) documents

/-- Replaces the taint issues of a file. -/
def reloadTaint (file : Url) (issues : List TaintIssue) (cache : Cache) : Cache :=
  { cache with taint := cache.taint.reload file issues }

/-- Says how many taint issues a file has, if it has any. -/
def remarkTaint (file : Url) : Transition Cache Effect :=
  inspect fun cache =>
    match cache.taint.get file with
    | [] => idle
    | issues => emit [.remark (.fetched issues.length file)]

/-- Takes over what a refresh fetched, unless its file has been cleared since it began. -/
def applyRefresh (refresh : Refresh) (issues : List TaintIssue) : Transition Cache Effect :=
  inspect fun cache =>
    if cache.registered.get? refresh.file = some refresh.generation then
      (change (reloadTaint refresh.file issues)).andThen <|
        (remarkTaint refresh.file).andThen <| publish refresh.file
    else idle

/-- A refresh ends, with the issues that the server gave or without any answer. -/
def endRefresh (refresh : Refresh) (answer : Option (List TaintIssue)) :
    Transition Cache Effect :=
  (match answer with
    | some issues => applyRefresh refresh issues
    | none => idle).andThen
    (change fun cache => { cache with running := cache.running.filter (· ≠ refresh) })

/-- A commit that has waited is made. -/
def resume (pending : WaitingCommit) : Transition Cache Effect :=
  (change fun cache => { cache with waiting := cache.waiting.erase pending }).andThen <|
    (commit pending.file).andThen (emit [.returned pending.ticket])

/-- The commits that wait for a refresh. -/
def waitingFor (cache : Cache) (generation : Nat) : List WaitingCommit :=
  cache.waiting.filter (·.generation = generation)

/-- The refresh of a generation ends, and the commits that have waited for it are made; nothing
happens if no such refresh is running. -/
def complete (generation : Nat) (answer : Option (List TaintIssue)) : Transition Cache Effect :=
  inspect fun cache =>
    match cache.running.find? (·.generation = generation) with
    | some refresh =>
      (endRefresh refresh answer).andThen (each resume (cache.waitingFor generation))
    | none => idle

/-- Something that happens to the cache. -/
inductive Operation
  | start (file : Url)
  | report (document : Document) (issue : Issue)
  | reportTracked (document : Document) (issue : Issue) (known : List ServerIssue)
  | fail (file : Url)
  | succeed (file : Url) (ticket : Nat)
  | clear (file : Url)
  | schedule (server : Binding) (documents : List Document)
  | complete (generation : Nat) (answer : Option (List TaintIssue))
  | seedSecretSeen (seen : Bool)

/-- What an operation does. -/
def step : Operation → Transition Cache Effect
  | .start file => start file
  | .report document issue => report document issue
  | .reportTracked document issue known => reportTracked document issue known
  | .fail file => fail file
  | .succeed file ticket => succeed file ticket
  | .clear file => clear file
  | .schedule server documents => schedule server documents
  | .complete generation answer => complete generation answer
  | .seedSecretSeen seen => change (seedSecretSeen seen)

/-- What a sequence of operations does. -/
def run : List Operation → Transition Cache Effect :=
  each step

end IssueRelay.Cache
