import IssueRelay.Binding
import IssueRelay.Diagnostic.OfIssues
import IssueRelay.Document.Basic
import IssueRelay.Issue.TaintStore
import IssueRelay.Transition

/-!
# The issue cache

What is known of the issues of every file. A file has the issues of the last completed pass and,
while a pass is under way, the issues which that pass has reported so far; a reader sees the latter
as soon as there are any, and never a mixture. Taint issues come from refreshes, which run beside
the passes. Every publication tells an editor the whole list of diagnostics of one file.
-/

namespace IssueRelay

/-- A refresh of the taint issues of a file. The generation stands for the refresh itself, as a
handle that no other refresh shares: refreshes are counted without end. A counter of 64 bits comes
around, and gives a refresh the number of an earlier one, only when `2 ^ 64` more have begun. -/
structure Refresh where
  generation : Nat
  file : Url
  deriving DecidableEq, Repr

/-- A pass that has ended and waits for a refresh before its issues are committed. The ticket says
who waits. -/
structure WaitingCommit where
  ticket : Nat
  file : Url
  generation : Nat
  deriving DecidableEq, Repr

/-- What the cache knows. `registered` holds the generation of the latest refresh of each file that
has not been cleared since, `running` the refreshes that have not ended. -/
structure Cache where
  committed : Dictionary Url IssueSet
  inProgress : Dictionary Url IssueSet
  taint : TaintStore
  registered : Dictionary Url Nat
  running : List Refresh
  waiting : List WaitingCommit
  secretSeen : Bool
  nextId : IssueId
  nextGeneration : Nat

namespace Cache

/-- Something worth telling whoever watches the program. -/
inductive Note
  | firstSecret
  | fetched (count : Nat) (file : Url)
  deriving Repr

/-- The wording of a note. -/
def Note.text : Note → String
  | .firstSecret => "first secret detected"
  | .fetched count file =>
    "Fetched " ++ toString count ++ " taint "
      ++ (if count = 1 then "vulnerability" else "vulnerabilities") ++ " for " ++ file.text

/-- What the cache brings about outside of itself. -/
inductive Effect
  | publish (file : Url) (diagnostics : List Diagnostic)
  | announceSecret
  | beginFetch (refresh : Refresh) (server : Binding) (path : String)
  | numbered (id : IssueId)
  | returned (ticket : Nat)
  | remark (note : Note)
  deriving Repr

/-- Nothing is known. Identifiers count from one, generations from zero. -/
def empty : Cache where
  committed := ∅
  inProgress := ∅
  taint := .empty
  registered := ∅
  running := []
  waiting := []
  secretSeen := false
  nextId := ⟨1⟩
  nextGeneration := 0

instance : Inhabited Cache :=
  ⟨empty⟩

/-- The issues of a file that a reader sees. -/
def current (cache : Cache) (file : Url) : IssueSet :=
  match cache.inProgress.get? file with
  | some issues => issues
  | none => (cache.committed.get? file).getD ∅

/-- How many issues of a file a reader sees. -/
def count (cache : Cache) (file : Url) : Nat :=
  (cache.current file).size

/-- The issue of a file under an identifier. -/
def issue? (cache : Cache) (file : Url) (id : IssueId) : Option LocalIssue :=
  (cache.current file).get? id

/-- The local issue that a diagnostic of a file is about. -/
def issueFor? (cache : Cache) (file : Url) (diagnostic : Diagnostic) : Option LocalIssue :=
  if diagnostic.source = some Diagnostic.localSource then do
    let id ← IssueId.ofText? (← diagnostic.dataText?)
    cache.issue? file id
  else none

/-- The taint issue that a diagnostic of a file is about. -/
def taintFor? (cache : Cache) (file : Url) (diagnostic : Diagnostic) : Option TaintIssue :=
  if diagnostic.source = some Diagnostic.taintSource then do
    let key ← diagnostic.dataText?
    (cache.taint.get file).find? (·.key = key)
  else none

/-- Whether a refresh has not ended. -/
def isRunning (cache : Cache) (generation : Nat) : Bool :=
  cache.running.any (·.generation = generation)

/-- The registered refresh of a file, if it has not ended. -/
def unfinished? (cache : Cache) (file : Url) : Option Nat :=
  (cache.registered.get? file).filter cache.isRunning

/-- Whether the taint issues of a file are being refreshed. -/
def isUpdating (cache : Cache) (file : Url) : Bool :=
  (cache.unfinished? file).isSome

end Cache
end IssueRelay
