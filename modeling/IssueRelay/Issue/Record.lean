import IssueRelay.Issue.Basic
import IssueRelay.Json.Record

/-!
# Issues in JSON

Reading and writing of the issue records. Each record names its fields once, in the order of its
array form; writing gives every field.
-/

namespace IssueRelay

open Json

/-- A list of values as an array. -/
def Json.ofList {α : Type} (write : α → Json) (values : List α) : Json :=
  .arr (values.map write)

/-- A natural number of 32 bits as a numeral. -/
def Json.ofWord (value : UInt32) : Json :=
  .int value.toNat

namespace Severity

/-- Any text is a severity. -/
def read? : Reader Severity :=
  fun json => (text? json).map ofText

/-- A severity as its text. -/
def toJson (severity : Severity) : Json :=
  .text severity.text

end Severity

namespace TextRange

/-- The fields of a range. -/
def fieldNames : List String :=
  ["startLine", "startColumn", "endLine", "endColumn"]

/-- All four numbers have to be there. -/
def read? : Reader TextRange := fun json => do
  let field ← fields? fieldNames 4 json
  return {
    startLine := ← required? word32? (field "startLine")
    startColumn := ← required? word32? (field "startColumn")
    endLine := ← required? word32? (field "endLine")
    endColumn := ← required? word32? (field "endColumn") }

/-- A range with its four numbers. -/
def toJson (range : TextRange) : Json :=
  .record [("startLine", .ofWord range.startLine), ("startColumn", .ofWord range.startColumn),
    ("endLine", .ofWord range.endLine), ("endColumn", .ofWord range.endColumn)]

end TextRange

namespace Location

/-- The fields of a location. -/
def fieldNames : List String :=
  ["range", "message"]

/-- Both fields may be left out or null. -/
def read? : Reader Location := fun json => do
  let field ← fields? fieldNames 0 json
  return {
    range := ← option? TextRange.read? (field "range")
    message := ← option? text? (field "message") }

/-- A location, with null for what it lacks. -/
def toJson (location : Location) : Json :=
  .record [("range", .orNull (location.range.map TextRange.toJson)),
    ("message", .orNull (location.message.map .text))]

end Location

namespace Flow

/-- The fields of a flow. -/
def fieldNames : List String :=
  ["locations"]

/-- A flow without locations may leave them out. -/
def read? : Reader Flow := fun json => do
  let field ← fields? fieldNames 0 json
  return { locations := ← default? [] (list? Location.read?) (field "locations") }

/-- A flow with its locations in order. -/
def toJson (flow : Flow) : Json :=
  .record [("locations", .ofList Location.toJson flow.locations)]

end Flow

namespace Issue

/-- The fields of an issue. -/
def fieldNames : List String :=
  ["ruleKey", "message", "severity", "range", "flows"]

/-- An issue without flows may leave them out. -/
def read? : Reader Issue := fun json => do
  let field ← fields? fieldNames 4 json
  return {
    ruleKey := ← required? text? (field "ruleKey")
    message := ← required? text? (field "message")
    severity := ← required? Severity.read? (field "severity")
    range := ← required? TextRange.read? (field "range")
    flows := ← default? [] (list? Flow.read?) (field "flows") }

/-- An issue with all its fields. -/
def toJson (issue : Issue) : Json :=
  .record [("ruleKey", .text issue.ruleKey), ("message", .text issue.message),
    ("severity", issue.severity.toJson), ("range", issue.range.toJson),
    ("flows", .ofList Flow.toJson issue.flows)]

end Issue

namespace TaintIssue

/-- The fields of a taint issue. -/
def fieldNames : List String :=
  ["key", "ruleKey", "message", "severity", "range", "flows", "resolved"]

/-- Flows and resolution may be left out. -/
def read? : Reader TaintIssue := fun json => do
  let field ← fields? fieldNames 5 json
  return {
    key := ← required? text? (field "key")
    ruleKey := ← required? text? (field "ruleKey")
    message := ← required? text? (field "message")
    severity := ← required? Severity.read? (field "severity")
    range := ← required? TextRange.read? (field "range")
    flows := ← default? [] (list? Flow.read?) (field "flows")
    resolved := ← default? false truth? (field "resolved") }

/-- A taint issue with all its fields. -/
def toJson (issue : TaintIssue) : Json :=
  .record [("key", .text issue.key), ("ruleKey", .text issue.ruleKey),
    ("message", .text issue.message), ("severity", issue.severity.toJson),
    ("range", issue.range.toJson), ("flows", .ofList Flow.toJson issue.flows),
    ("resolved", .bool issue.resolved)]

end TaintIssue

namespace ServerIssue

/-- The fields of a server issue. -/
def fieldNames : List String :=
  ["key", "ruleKey", "message", "line", "resolved"]

/-- Line and resolution may be left out; the line may be null. -/
def read? : Reader ServerIssue := fun json => do
  let field ← fields? fieldNames 3 json
  return {
    key := ← required? text? (field "key")
    ruleKey := ← required? text? (field "ruleKey")
    message := ← required? text? (field "message")
    line := ← option? word32? (field "line")
    resolved := ← default? false truth? (field "resolved") }

/-- A server issue with all its fields. -/
def toJson (issue : ServerIssue) : Json :=
  .record [("key", .text issue.key), ("ruleKey", .text issue.ruleKey),
    ("message", .text issue.message), ("line", .orNull (issue.line.map .ofWord)),
    ("resolved", .bool issue.resolved)]

end ServerIssue

/-- A page of issues: an object or array whose only field is the list of them. -/
def issuesPage? {α : Type} (read : Reader α) : Reader (List α) := fun json => do
  let field ← fields? ["issues"] 1 json
  required? (list? read) (field "issues")

/-- A local issue: its version always, the key of its server issue if there is one, and its
resolution if it is resolved. -/
def LocalIssue.toJson (found : LocalIssue) : Json :=
  .record ([("issue", found.issue.toJson), ("documentVersion", .int found.documentVersion.toInt)]
    ++ Json.optional "serverKey" (found.status.key.map .text)
    ++ Json.optional "resolved" (if found.status.resolved then some (.bool true) else none))

end IssueRelay
