import IssueRelay.Url.Reference

/-!
# Binding to a server

The project of a server that a workspace belongs to. Its issues have pages on the server, which are
addressed below the server's URL.
-/

namespace IssueRelay

/-- The server and the project of a workspace. -/
structure Binding where
  serverUrl : Url
  token : Option String
  projectKey : String
  branch : Option String
  deriving DecidableEq, Repr

namespace Binding

/-- The branch as a pair of a query, if there is one. -/
def branchPair (server : Binding) : List (String × String) :=
  server.branch.toList.map ("branch", ·)

/-- The page of an issue, or why the server's URL has no such page. -/
def issueUrl (server : Binding) (issueKey : String) : Except UrlError Url := do
  let page ← server.serverUrl.resolve ["project", "issues"]
  return page.withPairs
    ([("id", server.projectKey), ("issues", issueKey), ("open", issueKey)] ++ server.branchPair)

end Binding
end IssueRelay
