import IssueRelay.Analyzer
import IssueRelay.Binding
import IssueRelay.Debouncer
import IssueRelay.Url.Parser

/-!
# Configuration

What a workspace says about its analyzer, its server and earlier notifications.
-/

namespace IssueRelay

/-- The analyzer of a workspace, and how long its files have to be quiet, in milliseconds. -/
structure AnalyzerConfig where
  command : List String
  debounce : UInt64
  deriving DecidableEq, Repr

/-- The server of a workspace, as it is written down. -/
structure ServerConfig where
  url : String
  projectKey : String
  branch : Option String
  token : Option String
  deriving DecidableEq, Repr

/-- A configuration. `secretSeen` says that the user has already been told about secrets. -/
structure Config where
  analyzer : AnalyzerConfig
  server : Option ServerConfig
  secretSeen : Bool
  deriving DecidableEq, Repr

/-- No analyzer, and the delay of a debouncer of which nothing else is said. -/
def AnalyzerConfig.standard : AnalyzerConfig where
  command := []
  debounce := Debouncer.standardDelay

/-- The configuration of a workspace that says nothing. -/
def Config.standard : Config where
  analyzer := .standard
  server := none
  secretSeen := false

namespace ServerConfig

/-- The binding to the server, if its URL is one. -/
def binding (config : ServerConfig) : Except UrlError Binding := do
  let serverUrl ← Url.parse config.url
  return { serverUrl, token := config.token, projectKey := config.projectKey,
           branch := config.branch }

end ServerConfig
end IssueRelay
