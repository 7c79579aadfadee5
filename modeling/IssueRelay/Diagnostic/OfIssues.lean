import IssueRelay.Diagnostic.Basic
import IssueRelay.Issue.Message
import IssueRelay.Issue.Set

/-!
# Diagnostics of issues

An editor sees the issues of a file as one list of diagnostics: those found locally that the server
has not resolved, and the taint issues, by line and then by message. Among equals the local ones
come first, in the order of their identifiers, and taint issues keep the order of the server. The
data of a diagnostic name its issue.
-/

namespace IssueRelay

/-- The span of a range, whose lines count from one; line zero is taken for line one. -/
def TextRange.span (range : TextRange) : Span where
  start := { line := range.startLine - min range.startLine 1, character := range.startColumn }
  stop := { line := range.endLine - min range.endLine 1, character := range.endColumn }

namespace Diagnostic

/-- The source of the diagnostics of local issues. -/
def localSource : String :=
  "hansei"

/-- The source of the diagnostics of taint issues. -/
def taintSource : String :=
  "hansei taint"

/-- The place of a location that has a range. -/
def relatedPlace? (uri : Url) (location : Location) : Option RelatedPlace :=
  location.range.map fun range =>
    { uri, span := range.span, message := location.message.getD "" }

/-- The places that flows pass, if there are any. -/
def relatedPlaces (uri : Url) (flows : List Flow) : Option (List RelatedPlace) :=
  match flows.flatMap fun flow => flow.locations.filterMap (relatedPlace? uri) with
  | [] => none
  | places => some places

/-- The diagnostic of a local issue. -/
def ofLocal (uri : Url) (id : IssueId) (issue : Issue) : Diagnostic where
  span := issue.range.span
  severity := some (.ofInt issue.severity.prominence.code)
  code := some (.text issue.ruleKey)
  codePage := none
  source := some localSource
  message := flowMessage issue.message issue.flows
  related := relatedPlaces uri issue.flows
  tags := none
  data := some (.text id.text)

/-- The diagnostic of a taint issue. -/
def ofTaint (uri : Url) (issue : TaintIssue) : Diagnostic where
  span := issue.range.span
  severity := some (.ofInt issue.severity.prominence.code)
  code := some (.text issue.ruleKey)
  codePage := none
  source := some taintSource
  message := flowMessage issue.message issue.flows
  related := relatedPlaces uri issue.flows
  tags := none
  data := some (.text issue.key)

/-- Whether a diagnostic may stand before another: on an earlier line, or on the same line with a
message that is not greater. -/
def mayPrecede (left right : Diagnostic) : Bool :=
  left.span.start.line < right.span.start.line
    || (left.span.start.line = right.span.start.line && left.message ≤ right.message)

/-- The diagnostics of a file, from its local issues and its taint issues. -/
def ofIssues (uri : Url) (issues : IssueSet) (taint : List TaintIssue) : List Diagnostic :=
  let unresolved := issues.inOrder.filter fun (_, found) => !found.status.resolved
  let shown := unresolved.map fun (id, found) => ofLocal uri id found.issue
  (shown ++ taint.map (ofTaint uri)).mergeSort mayPrecede

end Diagnostic
end IssueRelay
