import IssueRelay.Issue.Severity

/-!
# Issues

What an analysis engine reports on the text of a file, what a server knows about the same file,
and a reported issue with what has been found out about it. Lines are counted from one, columns
from zero.
-/

namespace IssueRelay

/-- A stretch of text. -/
structure TextRange where
  startLine : UInt32
  startColumn : UInt32
  endLine : UInt32
  endColumn : UInt32
  deriving DecidableEq, Repr

/-- A place that explains an issue. -/
structure Location where
  range : Option TextRange
  message : Option String
  deriving DecidableEq, Repr

/-- A path through the code, as the places it passes in order. -/
structure Flow where
  locations : List Location
  deriving DecidableEq, Repr

/-- An issue that an analysis engine reports. -/
structure Issue where
  ruleKey : String
  message : String
  severity : Severity
  range : TextRange
  flows : List Flow
  deriving DecidableEq, Repr

/-- A vulnerability that a server computes, under a key that stays with it. -/
structure TaintIssue where
  key : String
  ruleKey : String
  message : String
  severity : Severity
  range : TextRange
  flows : List Flow
  resolved : Bool
  deriving DecidableEq, Repr

/-- What a server remembers of an issue found in an earlier analysis. -/
structure ServerIssue where
  key : String
  ruleKey : String
  message : String
  line : Option UInt32
  resolved : Bool
  deriving DecidableEq, Repr

/-- What a server has to say about a reported issue. -/
structure ServerStatus where
  key : Option String
  resolved : Bool
  deriving DecidableEq, Repr

/-- The status of an issue that no server knows. -/
def ServerStatus.unknown : ServerStatus :=
  { key := none, resolved := false }

/-- What is said of one of the issues that are tracked: its place among them, the issue, and its
status on the server. -/
structure TrackedIssue where
  index : Nat
  issue : Issue
  status : ServerStatus
  deriving DecidableEq, Repr

/-- A reported issue, the version of the text it was found in, and its status on the server. -/
structure LocalIssue where
  issue : Issue
  documentVersion : Int32
  status : ServerStatus
  deriving DecidableEq, Repr

namespace Issue

/-- The repository of a rule: its key up to the first colon, or all of it. -/
def repository (issue : Issue) : String :=
  String.ofList (issue.ruleKey.toList.takeWhile (· ≠ ':'))

/-- Whether an issue comes from the rules that look for secrets. -/
def isSecret (issue : Issue) : Bool :=
  issue.repository = "secrets"

end Issue
end IssueRelay
