/-!
# Severities

How grave an issue is, as its engine or server says, and how prominently an editor shows it.
Reading a severity knows five words in any ASCII case and never fails: any other text is kept as
it stands.
-/

namespace IssueRelay

/-- A severity: one of the five known words, or a text that is none of them. -/
inductive Severity
  | blocker
  | critical
  | major
  | minor
  | info
  | other (raw : String)
  deriving DecidableEq, Repr

/-- How prominently an editor shows an issue. -/
inductive Prominence
  | warning
  | information
  | hint
  deriving DecidableEq, Repr

namespace Severity

/-- The severity that a text names; `String.toUpper` changes ASCII letters only. -/
def ofText (raw : String) : Severity :=
  match raw.toUpper with
  | "BLOCKER" => .blocker
  | "CRITICAL" => .critical
  | "MAJOR" => .major
  | "MINOR" => .minor
  | "INFO" => .info
  | _ => .other raw

/-- The written form: a known word in upper case, any other text as it was read. -/
def text : Severity → String
  | .blocker => "BLOCKER"
  | .critical => "CRITICAL"
  | .major => "MAJOR"
  | .minor => "MINOR"
  | .info => "INFO"
  | .other raw => raw

/-- The grave severities are shown as warnings, unknown ones as hints. -/
def prominence : Severity → Prominence
  | .blocker | .critical | .major => .warning
  | .minor => .information
  | .info | .other _ => .hint

end Severity

/-- The number by which editors know a prominence. -/
def Prominence.code : Prominence → Int
  | .warning => 2
  | .information => 3
  | .hint => 4

end IssueRelay
