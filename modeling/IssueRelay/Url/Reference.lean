import IssueRelay.Text.Form
import IssueRelay.Url.Parser

/-!
# Relative references

A reference that is a path of plain segments takes the place of the last segment of a base, whose
query and fragment are dropped. Queries are written as lists of pairs.
-/

namespace IssueRelay.Url

/-- The segments of a base that stay: all but the last, which is kept only if it is the letter of
the drive of a file. -/
def keptSegments (scheme : String) (segments : List String) : List String :=
  match segments.getLast? with
  | some last =>
    if scheme = "file" && isDrive last.toList && last.endsWith ":" then segments
    else segments.dropLast
  | none => []

/-- The URL that a path of segments refers to below a base. A flat path is no base. -/
def resolve (base : Url) (reference : List String) : Except UrlError Url :=
  match base.path with
  | .flat _ => .error .relativeToFlatPath
  | .rooted segments =>
    let (resolved, _) := readSegments base.scheme (keptSegments base.scheme segments)
      ("/".intercalate reference).toList
    .ok { base with path := .rooted resolved, query := none, fragment := none }

/-- A URL with the given pairs as its query. -/
def withPairs (url : Url) (pairs : List (String × String)) : Url :=
  { url with query := some (Form.encode pairs) }

end IssueRelay.Url
