import IssueRelay.Url.FilePath
import IssueRelay.Url.Parser

/-!
# Documents

The text of a file at one version, as an analysis sees it. Its path relative to the root of the
workspace is the name under which a server knows the file.
-/

namespace IssueRelay

/-- The text of a file at one version. -/
structure Document where
  uri : Url
  version : Int32
  relativePath : String
  content : String
  deriving DecidableEq, Repr

/-- A path of a URL without the slashes it begins with. -/
def withoutLeadingSlashes (path : String) : String :=
  String.ofList (path.toList.dropWhile (· = '/'))

/-- The path of a file relative to a root, with slashes between its steps; for a file outside the
root, or without a root, the path of its URL as written, without the slashes it begins with. -/
def relativePath (root : Option FilePath) (uri : Url) : String :=
  let below := do
    let root ← root
    let path ← uri.filePath?
    path.below? root
  match below with
  | some steps => "/".intercalate (steps.map FilePath.Component.text)
  | none => withoutLeadingSlashes uri.path.text

end IssueRelay
