import IssueRelay.Proofs.Text.Form
import IssueRelay.Remote.Fetch

/-!
# What a server reads of the texts sent to it

The pages of issues and the requests for issues are addressed below the URL of a server, with the
texts that they are about in the query. The server reads the very texts back, whatever characters
they hold and whatever query the URL of the server came with
(`IssueRelay.Binding.texts_reach_server`).
-/

namespace IssueRelay

namespace Form

/-- A written query ends no earlier than it was written. -/
theorem no_number_sign (pairs : List (String × String)) : '#' ∉ (encode pairs).toList := by
  have part : ∀ text, '#' ∉ encodePart text := fun text member =>
    absurd (isWritten_of_mem_encodePart member) (by decide)
  rw [encode, String.toList_ofList]
  induction pairs with
  | nil => simp
  | cons pair rest ih =>
      cases rest with
      | nil => simp [encodePair, part]
      | cons next others =>
          rw [List.map_cons, List.map_cons, List.intercalate_cons_cons]
          rw [List.map_cons] at ih
          simpa [encodePair, part] using ih

end Form

/-! ## Queries of URLs -/

namespace Url

/-- Whether relative references can be resolved against a URL. -/
def IsBase (url : Url) : Prop :=
  ∀ text, url.path ≠ .flat text

/-- A URL that lies with the scheme, host and port of another, has the given pairs as its query, and
has no fragment. A number sign would end the query. -/
structure Asks (url server : Url) (pairs : List (String × String)) : Prop where
  scheme : url.scheme = server.scheme
  authority : url.authority = server.authority
  query : ∃ query, url.query = some query ∧ Form.decode query = pairs ∧ '#' ∉ query.toList
  fragment : url.fragment = none

/-- A URL that lies with the scheme and authority of another, and has a path of its own. -/
def below (base : Url) (segments : List String) : Url :=
  { base with path := .rooted segments, query := none, fragment := none }

/-- A reference can be resolved against a base; query and fragment of the base do not matter. -/
theorem exists_resolve {base : Url} (isBase : base.IsBase) (reference : List String) :
    ∃ segments, ∀ query fragment,
      { base with query, fragment }.resolve reference = .ok (base.below segments) := by
  cases path : base.path with
  | flat text => exact absurd path (isBase text)
  | rooted segments => exact ⟨_, fun query fragment => by simp only [resolve]; rfl⟩

/-- Pairs are read back from the URL that they are the query of. -/
theorem asks_below (server : Url) (segments : List String) (pairs : List (String × String)) :
    ((server.below segments).withPairs pairs).Asks server pairs where
  scheme := rfl
  authority := rfl
  query := ⟨Form.encode pairs, rfl, Form.decode_encode pairs, Form.no_number_sign pairs⟩
  fragment := rfl

end Url

namespace Binding

/-- The server with another query and fragment in its URL. -/
def withQuery (server : Binding) (query fragment : Option String) : Binding :=
  { server with serverUrl := { server.serverUrl with query, fragment } }

/-- The address of an issue lies below the address of the server, with the same pairs whatever that
one's query and fragment are. -/
theorem exists_issueUrl {server : Binding} (isBase : server.serverUrl.IsBase) (issueKey : String) :
    ∃ segments, ∀ query fragment, (server.withQuery query fragment).issueUrl issueKey =
      .ok ((server.serverUrl.below segments).withPairs
        ([("id", server.projectKey), ("issues", issueKey), ("open", issueKey)] ++
          server.branchPair)) := by
  obtain ⟨segments, resolved⟩ := Url.exists_resolve isBase ["project", "issues"]
  refine ⟨segments, fun query fragment => ?_⟩
  rw [issueUrl, withQuery, resolved]
  rfl

/-- The address of a page lies below the address of the server, with the same pairs whatever that
one's query and fragment are. -/
theorem exists_pageUrl {server : Binding} (isBase : server.serverUrl.IsBase) (endpoint : Endpoint)
    (path : String) :
    ∃ segments, ∀ query fragment,
      PageRequest.pageUrl (server.withQuery query fragment) endpoint path =
        .ok ((server.serverUrl.below segments).withPairs
          ([("project", server.projectKey), ("path", path)] ++ server.branchPair)) := by
  obtain ⟨segments, resolved⟩ := Url.exists_resolve isBase endpoint.segments
  refine ⟨segments, fun query fragment => ?_⟩
  rw [PageRequest.pageUrl, withQuery, resolved]
  rfl

/-- Different paths are asked for under different addresses. -/
theorem pageUrl_injective {server : Binding} (isBase : server.serverUrl.IsBase)
    (endpoint : Endpoint) : Function.Injective (PageRequest.pageUrl server endpoint) := by
  intro path other same
  obtain ⟨_, address⟩ := exists_pageUrl isBase endpoint path
  obtain ⟨_, otherAddress⟩ := exists_pageUrl isBase endpoint other
  have pages := ((address _ _).symm.trans same).trans (otherAddress _ _)
  have queries := Option.some.inj (congrArg Url.query (Except.ok.inj pages))
  simpa using Form.encode_injective queries

/-- **The texts in a query.** Below a URL that can be a base, every issue has a page and every file
an address, and the server reads from their queries exactly the project, the keys or the path, and
the branch if there is one, in this order, whatever characters these texts hold. Scheme, host and
port are those of the server, and its own query and fragment leave no trace. The request that is
made for the issues of a file is for this address. -/
theorem texts_reach_server {server : Binding} (isBase : server.serverUrl.IsBase)
    (issueKey : String) (endpoint : Endpoint) (path : String) :
    let branch := match server.branch with
      | some name => [("branch", name)]
      | none => []
    (∃ page, server.issueUrl issueKey = .ok page ∧
        page.Asks server.serverUrl
          ([("id", server.projectKey), ("issues", issueKey), ("open", issueKey)] ++ branch) ∧
        ∀ query fragment, (server.withQuery query fragment).issueUrl issueKey = .ok page) ∧
      ∃ page, PageRequest.pageUrl server endpoint path = .ok page ∧
        page.Asks server.serverUrl
          ([("project", server.projectKey), ("path", path)] ++ branch) ∧
        (∀ query fragment,
          PageRequest.pageUrl (server.withQuery query fragment) endpoint path = .ok page) ∧
        PageRequest.make server endpoint path =
          if ["http", "https"].contains server.serverUrl.scheme &&
              server.token.all PageRequest.isSendable then
            .ok { url := page, authorization := server.token.map ("Bearer " ++ ·) }
          else .error (.requestFailed page) := by
  intro branch
  have branches : server.branchPair = branch := by
    simp only [branch, branchPair]
    cases server.branch <;> rfl
  obtain ⟨segments, page⟩ := exists_issueUrl isBase issueKey
  obtain ⟨others, address⟩ := exists_pageUrl isBase endpoint path
  have found := address server.serverUrl.query server.serverUrl.fragment
  rw [branches] at page found address
  refine ⟨⟨_, page _ _, Url.asks_below _ segments _, page⟩,
    _, found, Url.asks_below _ others _, address, ?_⟩
  rw [PageRequest.make]
  exact congrArg (· >>= _) found

/-- A binding whose texts are full of separators, to a server whose URL has a query. -/
def crowded : Binding where
  serverUrl :=
    { scheme := "http"
      authority :=
        some { username := "", password := "", host := some (.domain "s"), port := some 8080 }
      path := .rooted ["sub", "x"]
      query := some "id=other"
      fragment := some "top" }
  token := none
  projectKey := "a&id=b#c"
  branch := some "x y+%41"

/-- Separators in texts separate nothing. -/
theorem separators_reach_server :
    crowded.serverUrl.IsBase ∧
      ∃ page, crowded.issueUrl "k=1&open=2" = .ok page ∧
        page.Asks crowded.serverUrl
          [("id", "a&id=b#c"), ("issues", "k=1&open=2"), ("open", "k=1&open=2"),
            ("branch", "x y+%41")] := by
  have isBase : crowded.serverUrl.IsBase := fun text => nofun
  obtain ⟨⟨page, found, asks, _⟩, _⟩ := texts_reach_server isBase "k=1&open=2" .taint ""
  exact ⟨isBase, page, found, asks⟩

end Binding
end IssueRelay
