import IssueRelay.Binding
import IssueRelay.Issue.Record
import IssueRelay.Json.Parser
import IssueRelay.Remote.Status

/-!
# Fetching issues from a server

A server gives the issues that it knows of one file of a project as a page of JSON. The request
names project, path and branch in its query and shows the token, if there is one. Whatever goes
wrong before an answer with a readable page has arrived is an error, and so is every status that
does not stand for success.
-/

namespace IssueRelay

/-- Where a server keeps its issues. -/
inductive Endpoint
  | taint
  | tracking
  deriving DecidableEq, Repr

/-- The path of an endpoint below the URL of its server. -/
def Endpoint.segments : Endpoint → List String
  | .taint => ["api", "issues", "taint"]
  | .tracking => ["api", "issues", "tracking"]

/-- A request for a page of issues. -/
structure PageRequest where
  url : Url
  authorization : Option String
  deriving DecidableEq, Repr

/-- What a server says to a request. -/
structure PageAnswer where
  status : StatusCode
  body : Octets
  deriving DecidableEq, Repr

/-- Why no issues could be fetched. -/
inductive FetchError
  | invalidEndpoint (server : Url) (cause : UrlError)
  | requestFailed (url : Url)
  | refused (url : Url) (status : StatusCode)
  deriving DecidableEq, Repr

/-- The wording of an error. -/
def FetchError.message : FetchError → String
  | .invalidEndpoint server cause =>
    "Invalid endpoint on '" ++ server.text ++ "': " ++ cause.message
  | .requestFailed url => "Request to '" ++ url.text ++ "' failed"
  | .refused url status => "Server returned " ++ status.text ++ " for '" ++ url.text ++ "'"

namespace PageRequest

/-- The page of the issues of a file. -/
def pageUrl (server : Binding) (endpoint : Endpoint) (path : String) : Except FetchError Url :=
  match server.serverUrl.resolve endpoint.segments with
  | .ok page =>
    .ok (page.withPairs ([("project", server.projectKey), ("path", path)] ++ server.branchPair))
  | .error cause => .error (.invalidEndpoint server.serverUrl cause)

/-- Whether a token can be sent: it may not hold control characters other than tabs. -/
def isSendable (token : String) : Bool :=
  token.toList.all fun char => char = '\t' || (0x20 ≤ char.toNat && char.toNat ≠ 0x7F)

/-- The request for the issues of a file. A server that is not on the web, or a token that cannot
be sent, makes it fail before anything is sent. -/
def make (server : Binding) (endpoint : Endpoint) (path : String) :
    Except FetchError PageRequest := do
  let url ← pageUrl server endpoint path
  if ["http", "https"].contains url.scheme && server.token.all isSendable then
    return { url, authorization := server.token.map ("Bearer " ++ ·) }
  else throw (.requestFailed url)

/-- The issues on the page that an answer holds. -/
def issuesOf {α : Type} (read : Json.Reader α) (request : PageRequest) (answer : PageAnswer) :
    Except FetchError (List α) :=
  if answer.status.isSuccess then
    let body := if answer.status.carriesBody then answer.body else []
    match (Json.parse? body).bind (issuesPage? read) with
    | some issues => .ok issues
    | none => .error (.requestFailed request.url)
  else .error (.refused request.url answer.status)

/-- What comes of a request, whose server may close the connection without an answer. -/
def outcome {α : Type} (read : Json.Reader α) (request : PageRequest) :
    Option PageAnswer → Except FetchError (List α)
  | some answer => issuesOf read request answer
  | none => .error (.requestFailed request.url)

end PageRequest
end IssueRelay
