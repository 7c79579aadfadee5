import IssueRelay.Url.Host

/-!
# URLs

A URL as its parts. Two URLs are the same when all their parts are; every part is in the one form
that reading gives it, so this is also when their texts are the same.
-/

namespace IssueRelay

namespace Url

/-- Who is asked, and where. An empty name or password is the same as none. -/
structure Authority where
  username : String
  password : String
  host : Option Host
  port : Option Nat
  deriving DecidableEq, Repr

/-- A path: a text without structure, or segments with a slash before each. -/
inductive Path
  | flat (text : String)
  | rooted (segments : List String)
  deriving DecidableEq, Repr

/-- The written form of a path. -/
def Path.text : Path → String
  | .flat text => text
  | .rooted segments => String.join (segments.map ("/" ++ ·))

/-- The written form of an authority. -/
def Authority.text (authority : Authority) : String :=
  let credentials :=
    authority.username ++ (if authority.password = "" then "" else ":" ++ authority.password)
  (if credentials = "" then "" else credentials ++ "@")
    ++ ((authority.host.map Host.text).getD "")
    ++ ((authority.port.map fun port => ":" ++ toString port).getD "")

end Url

/-- A URL. -/
structure Url where
  scheme : String
  authority : Option Url.Authority
  path : Url.Path
  query : Option String
  fragment : Option String
  deriving DecidableEq, Repr

namespace Url

/-- The written form of a URL. A path that begins with an empty segment is kept apart from an
authority by a segment of one dot. -/
def text (url : Url) : String :=
  url.scheme ++ ":"
    ++ (match url.authority, url.path with
      | some authority, _ => "//" ++ authority.text
      | none, .rooted ("" :: _ :: _) => "/."
      | none, _ => "")
    ++ url.path.text
    ++ ((url.query.map ("?" ++ ·)).getD "")
    ++ ((url.fragment.map ("#" ++ ·)).getD "")

/-- The host of a URL. -/
def host (url : Url) : Option Host :=
  url.authority.bind Authority.host

/-- The segments of the path, if it has any. -/
def segments? (url : Url) : Option (List String) :=
  match url.path with
  | .rooted [] | .flat _ => none
  | .rooted segments => some segments

/-- The schemes of the web, `file` among them. -/
def isSpecial (scheme : String) : Bool :=
  ["http", "https", "ws", "wss", "ftp", "file"].contains scheme

/-- The port that a scheme has when none is given. -/
def defaultPort? : String → Option Nat
  | "http" | "ws" => some 80
  | "https" | "wss" => some 443
  | "ftp" => some 21
  | _ => none

end Url
end IssueRelay
