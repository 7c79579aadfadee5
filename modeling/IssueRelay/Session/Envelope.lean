import IssueRelay.Json.Parser
import IssueRelay.Json.Printer
import IssueRelay.Session.Basic

/-!
# Messages on the wire

Every message between server and editor is a JSON object behind a header that says how many octets
it has. Messages from the editor name a method; those that want an answer carry an identifier, which
the answer repeats.
-/

namespace IssueRelay.Session

open Json

/-- A message from the editor. -/
structure Call where
  id : Option Json
  method : String
  params : Option Json

/-- A value that is not null. -/
def given? : Json → Option Json
  | .null => none
  | json => some json

/-- Reads a message from the editor. -/
def Call.read? : Reader Call := fun json => do
  object? json
  let field ← fields? ["jsonrpc", "id", "method", "params"] 0 json
  if (← required? text? (field "jsonrpc")) = "2.0" then
    return {
      id := (field "id").bind given?
      method := ← required? text? (field "method")
      params := (field "params").bind given? }
  else none

/-- The message that a text holds. -/
def Call.ofOctets? (octets : Octets) : Option Call :=
  (Json.parse? octets).bind Call.read?

/-- The answer to a message. -/
def response (id : Json) (answer : Except Refusal Json) : Json :=
  .record [("jsonrpc", .text "2.0"), ("id", id),
    match answer with
    | .ok result => ("result", result)
    | .error refusal =>
      ("error", .record [("code", .int refusal.code), ("message", .text refusal.message)])]

/-- A message to the editor that wants no answer. -/
def notification (method : String) (params : Json) : Json :=
  .record [("jsonrpc", .text "2.0"), ("method", .text method), ("params", params)]

/-- A message with its header. -/
def framed (message : Json) : String :=
  let body := message.render
  "Content-Length: " ++ toString body.utf8ByteSize ++ "\r\n\r\n" ++ body

/-- How many octets a line of a header says that its message has. -/
def contentLength? (line : String) : Option Nat :=
  match line.splitOn ":" with
  | [name, value] =>
    if (trimBlank name).toLower = "content-length" then
      Decimal.value? (trimBlank value).toList
    else none
  | _ => none

end IssueRelay.Session
