import IssueRelay.Dictionary
import IssueRelay.Issue.Basic
import IssueRelay.Issue.Id

/-!
# Sets of reported issues

The issues of one pass over one file, each under its identifier.
-/

namespace IssueRelay

/-- Reported issues under their identifiers. -/
abbrev IssueSet :=
  Dictionary IssueId LocalIssue

namespace IssueSet

/-- How many issues there are. -/
def size (issues : IssueSet) : Nat :=
  issues.entries.length

/-- The issues in the order of their identifiers. -/
def inOrder (issues : IssueSet) : List (IssueId × LocalIssue) :=
  issues.entries.mergeSort fun left right => left.1.le right.1

/-- Gives the issue under an identifier another status; nothing happens if there is no such issue or
if it has that status already. -/
def setStatus (issues : IssueSet) (id : IssueId) (status : ServerStatus) : IssueSet :=
  match issues.get? id with
  | some found => if found.status = status then issues else issues.insert id { found with status }
  | none => issues

/-- Takes over what has been said of issues that were tracked under the given identifiers: the
issue in each place has the identifier in that place. -/
def takeOver (ids : List IssueId) (issues : IssueSet) (results : List TrackedIssue) : IssueSet :=
  results.foldl (fun issues result =>
    match ids[result.index]? with
    | some id => issues.setStatus id result.status
    | none => issues) issues

/-- Whether some issue is a secret that nobody has resolved. -/
def showsSecret (issues : IssueSet) : Bool :=
  issues.entries.any fun (_, found) => !found.status.resolved && found.issue.isSecret

end IssueSet
end IssueRelay
