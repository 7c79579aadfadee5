import IssueRelay.Diagnostic.Basic
import IssueRelay.Issue.Record
import IssueRelay.Url.Parser

/-!
# Diagnostics in JSON

Reading and writing of diagnostics. What a diagnostic lacks is left out when it is written; an
array in its place has to hold every field.
-/

namespace IssueRelay

open Json

/-- A whole number of 32 bits with sign as a numeral. -/
def Json.ofInt32 (value : Int32) : Json :=
  .int value.toInt

/-- A URL is read from its text. -/
def Url.read? : Reader Url :=
  fun json => (text? json).bind Url.parse?

/-- A URL as its text. -/
def Url.toJson (url : Url) : Json :=
  .text url.text

namespace Position

/-- Both numbers have to be there. -/
def read? : Reader Position := fun json => do
  let field ← fields? ["line", "character"] 2 json
  return {
    line := ← required? word32? (field "line")
    character := ← required? word32? (field "character") }

/-- A position with both numbers. -/
def toJson (position : Position) : Json :=
  .record [("line", .ofWord position.line), ("character", .ofWord position.character)]

end Position

namespace Span

/-- Both ends have to be there. -/
def read? : Reader Span := fun json => do
  let field ← fields? ["start", "end"] 2 json
  return {
    start := ← required? Position.read? (field "start")
    stop := ← required? Position.read? (field "end") }

/-- A span with both ends. -/
def toJson (span : Span) : Json :=
  .record [("start", span.start.toJson), ("end", span.stop.toJson)]

end Span

namespace RelatedPlace

/-- The file and the span stand together as a location. -/
def read? : Reader RelatedPlace := fun json => do
  let field ← fields? ["location", "message"] 2 json
  let location ← required? (fields? ["uri", "range"] 2) (field "location")
  return {
    uri := ← required? Url.read? (location "uri")
    span := ← required? Span.read? (location "range")
    message := ← required? text? (field "message") }

/-- A related place with all its fields. -/
def toJson (place : RelatedPlace) : Json :=
  .record [("location", .record [("uri", place.uri.toJson), ("range", place.span.toJson)]),
    ("message", .text place.message)]

end RelatedPlace

namespace DiagnosticCode

/-- A code is a number or a text. -/
def read? : Reader DiagnosticCode
  | .str content => content.map text
  | json => (int32? json).map number

/-- A code as its number or text. -/
def toJson : DiagnosticCode → Json
  | .number value => .ofInt32 value
  | .text content => .text content

end DiagnosticCode

namespace Diagnostic

/-- The fields of a diagnostic. -/
def fieldNames : List String :=
  ["range", "severity", "code", "codeDescription", "source", "message", "relatedInformation",
    "tags", "data"]

/-- The page that explains a code stands in an object of its own. -/
def readCodePage? : Reader Url := fun json => do
  let field ← fields? ["href"] 1 json
  required? Url.read? (field "href")

/-- Range and message have to be there. -/
def read? : Reader Diagnostic := fun json => do
  let field ← fields? fieldNames 9 json
  return {
    span := ← required? Span.read? (field "range")
    severity := ← option? int32? (field "severity")
    code := ← option? DiagnosticCode.read? (field "code")
    codePage := ← option? readCodePage? (field "codeDescription")
    source := ← option? text? (field "source")
    message := ← required? text? (field "message")
    related := ← option? (list? RelatedPlace.read?) (field "relatedInformation")
    tags := ← option? (list? int32?) (field "tags")
    data := ← option? some (field "data") }

/-- A diagnostic with the fields it has. -/
def toJson (diagnostic : Diagnostic) : Json :=
  .record ([("range", diagnostic.span.toJson)]
    ++ Json.optional "severity" (diagnostic.severity.map .ofInt32)
    ++ Json.optional "code" (diagnostic.code.map DiagnosticCode.toJson)
    ++ Json.optional "codeDescription"
      (diagnostic.codePage.map fun page => .record [("href", page.toJson)])
    ++ Json.optional "source" (diagnostic.source.map .text)
    ++ [("message", .text diagnostic.message)]
    ++ Json.optional "relatedInformation" (diagnostic.related.map (.ofList RelatedPlace.toJson))
    ++ Json.optional "tags" (diagnostic.tags.map (.ofList .ofInt32))
    ++ Json.optional "data" diagnostic.data)

end Diagnostic
end IssueRelay
