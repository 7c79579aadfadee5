import IssueRelay.Json.Value
import IssueRelay.Url.Basic

/-!
# Diagnostics

What an editor is told about a place in a file. Lines and columns are counted from zero.
-/

namespace IssueRelay

/-- A place between two characters. -/
structure Position where
  line : UInt32
  character : UInt32
  deriving DecidableEq, Repr

/-- The text between two positions. -/
structure Span where
  start : Position
  stop : Position
  deriving DecidableEq, Repr

/-- A place that belongs to a diagnostic, and what there is to say about it. -/
structure RelatedPlace where
  uri : Url
  span : Span
  message : String
  deriving DecidableEq, Repr

/-- The code by which a diagnostic is known. -/
inductive DiagnosticCode
  | number (value : Int32)
  | text (content : String)
  deriving DecidableEq, Repr

/-- A diagnostic. Its data come back unchanged when the editor speaks of it. -/
structure Diagnostic where
  span : Span
  severity : Option Int32
  code : Option DiagnosticCode
  codePage : Option Url
  source : Option String
  message : String
  related : Option (List RelatedPlace)
  tags : Option (List Int32)
  data : Option Json
  deriving Repr

namespace Diagnostic

/-- The text that the data of a diagnostic are, if they are one. -/
def dataText? (diagnostic : Diagnostic) : Option String :=
  match diagnostic.data with
  | some (.str content) => content
  | _ => none

end Diagnostic
end IssueRelay
