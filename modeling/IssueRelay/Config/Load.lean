import IssueRelay.Config.Read
import IssueRelay.Files.System

/-!
# Finding and loading configurations

A configuration has a file name of its own. The file in force for a directory is the one in the
nearest directory above, the directory itself first; going up follows the path as it is written.
-/

namespace IssueRelay

/-- Why a configuration cannot be used. -/
inductive ConfigError
  | unreadable (path : FilePath) (cause : ReadError)
  | invalidToml (path : FilePath)
  | invalidServerUrl (url : String) (cause : UrlError)
  deriving DecidableEq, Repr

/-- The wording of an error. -/
def ConfigError.message : ConfigError → String
  | .unreadable path cause =>
    "Failed to read config file '" ++ path.text ++ "': " ++ cause.message
  | .invalidToml path => "Invalid TOML in '" ++ path.text ++ "'"
  | .invalidServerUrl url cause => "Invalid server url '" ++ url ++ "': " ++ cause.message

/-- The binding to a server, or why there is none. -/
def ServerConfig.bindingOrError (config : ServerConfig) : Except ConfigError Binding :=
  config.binding.mapError (.invalidServerUrl config.url)

namespace Config

/-- A configuration, and the warnings about the text that describes it. -/
structure Loaded where
  config : Config
  warnings : List Warning
  deriving DecidableEq, Repr

/-- What is in force when nothing can be loaded. -/
def Loaded.standard : Loaded where
  config := .standard
  warnings := []

/-- The name of the file that holds a configuration. -/
def fileName : FilePath :=
  .ofText "hansei.toml"

/-- A directory and those above it; the number bounds how many of them there are. -/
def upwardsWithin : Nat → FilePath → List FilePath
  | 0, directory => [directory]
  | bound + 1, directory =>
    directory :: ((directory.parent?.map (upwardsWithin bound)).getD [])

/-- A directory and those above it, the nearest first. Every step up shortens the path. -/
def upwards (directory : FilePath) : List FilePath :=
  upwardsWithin directory.octets.length directory

/-- The file in force for a directory. -/
def find? (isThere : FilePath → Bool) (directory : FilePath) : Option FilePath :=
  ((upwards directory).map (·.join fileName)).find? isThere

/-- The configuration in a file. -/
def load (files : FileSystem) (path : FilePath) : Except ConfigError Config := do
  let text ← (files.readText path).mapError (.unreadable path)
  match ofText? text with
  | some config => return config
  | none => throw (.invalidToml path)

/-- The configuration in a file, with warnings. -/
def loadWithWarnings (files : FileSystem) (path : FilePath) : Except ConfigError Loaded := do
  let text ← (files.readText path).mapError (.unreadable path)
  match ofText? text with
  | some config => return { config, warnings := warningsOfText text }
  | none => throw (.invalidToml path)

/-- The configuration in force for a directory. -/
def loadOrStandard (files : FileSystem) (directory : FilePath) : Config :=
  ((find? files.exists? directory).bind fun path => (load files path).toOption).getD .standard

/-- The configuration in force for a directory, with warnings. -/
def loadOrStandardWithWarnings (files : FileSystem) (directory : FilePath) : Loaded :=
  ((find? files.exists? directory).bind fun path =>
    (loadWithWarnings files path).toOption).getD .standard

/-- The configuration of a workspace: that of a given file, else the one in force for its root. -/
def ofWorkspace (files : FileSystem) (given root : Option FilePath) : Loaded :=
  let path := given <|> root.bind (find? files.exists?)
  (path.bind fun path => (loadWithWarnings files path).toOption).getD .standard

end Config
end IssueRelay
