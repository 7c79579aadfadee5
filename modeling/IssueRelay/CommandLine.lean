import IssueRelay.Files.Path

/-!
# The command line

The program takes three options with a value and one without, each at most once. The value follows
its option as the next argument, which may not begin with a dash unless it is a dash alone, or after
an equals sign. An option is settled when the next known one comes or the arguments end, so an
unknown argument is refused before the faults of the option in front of it.
-/

namespace IssueRelay

/-- How much is logged. -/
inductive LogLevel
  | trace
  | debug
  | info
  | warn
  | error
  deriving DecidableEq, Repr

namespace LogLevel

/-- The name of a level. -/
def text : LogLevel → String
  | .trace => "trace"
  | .debug => "debug"
  | .info => "info"
  | .warn => "warn"
  | .error => "error"

/-- The level with a name. -/
def ofText? : String → Option LogLevel
  | "trace" => some .trace
  | "debug" => some .debug
  | "info" => some .info
  | "warn" => some .warn
  | "error" => some .error
  | _ => none

/-- Every level is read back from its name. -/
@[simp] theorem ofText?_text (level : LogLevel) : ofText? level.text = some level := by
  cases level <;> rfl

end LogLevel

/-- Why the program does not start. -/
inductive UsageError
  | invalidValue
  | repeated
  | needlessValue
  | unknownArgument
  | helpRequested
  | versionRequested
  deriving DecidableEq, Repr

namespace CommandLine

/-- The name of the program. -/
def programName : String :=
  "hansei-lsp"

/-- The version of the program. -/
def programVersion : String :=
  "0.1.0"

/-- The answer to the question for the version. -/
def versionText : String :=
  programName ++ " " ++ programVersion ++ "\n"

/-- The options with a value. -/
inductive Parameter
  | logLevel
  | logFile
  | config
  deriving DecidableEq, Repr

/-- The options without a value. -/
inductive Flag
  | logJson
  | help
  | version
  deriving DecidableEq, Repr

/-- What an argument asks for by name. -/
inductive Name
  | parameter (parameter : Parameter)
  | flag (flag : Flag)
  deriving DecidableEq, Repr

/-- The options by their names. -/
def named? : String → Option Name
  | "log-level" => some (.parameter .logLevel)
  | "log-file" => some (.parameter .logFile)
  | "config" => some (.parameter .config)
  | "log-json" => some (.flag .logJson)
  | "help" => some (.flag .help)
  | "version" => some (.flag .version)
  | _ => none

/-- The options by their letters. -/
def lettered? : Char → Option Flag
  | 'h' => some .help
  | 'V' => some .version
  | _ => none

/-- What the options say, as far as they have been given. -/
structure Given where
  logLevel : Option LogLevel
  logFile : Option String
  config : Option String
  logJson : Bool

/-- An option that has not been settled, and the value that has followed it. -/
structure Pending where
  parameter : Parameter
  value : Option String

/-- The arguments read so far. -/
structure Progress where
  given : Given
  pending : Option Pending

/-- No arguments. -/
def Progress.initial : Progress where
  given := { logLevel := none, logFile := none, config := none, logJson := false }
  pending := none

/-- A path that is not empty. -/
def path? (value : String) : Except UsageError String :=
  if value = "" then throw .invalidValue else return value

/-- What the options say, with one more. -/
def Given.set (given : Given) : Parameter → String → Except UsageError Given
  | .logLevel, value => do
    if given.logLevel.isSome then throw .repeated
    match LogLevel.ofText? value with
    | some level => return { given with logLevel := some level }
    | none => throw .invalidValue
  | .logFile, value => do
    if given.logFile.isSome then throw .repeated
    return { given with logFile := some (← path? value) }
  | .config, value => do
    if given.config.isSome then throw .repeated
    return { given with config := some (← path? value) }

/-- Settles the option that is pending. -/
def Progress.settle (progress : Progress) : Except UsageError Given :=
  match progress.pending with
  | some { parameter, value := some value } => progress.given.set parameter value
  | some { parameter := _, value := none } => throw .invalidValue
  | none => return progress.given

/-- An option without a value. -/
def Progress.raise (progress : Progress) (flag : Flag) : Except UsageError Progress := do
  let given ← progress.settle
  match flag with
  | .help => throw .helpRequested
  | .version => throw .versionRequested
  | .logJson =>
    if given.logJson then throw .repeated
    return { given := { given with logJson := true }, pending := none }

/-- An argument that begins with two dashes: the name of an option, and a value after an equals
sign. -/
def Progress.long (progress : Progress) (content : List Char) : Except UsageError Progress := do
  let (name, rest) := content.span (· ≠ '=')
  match named? (String.ofList name), rest with
  | some (.flag flag), [] => progress.raise flag
  | some (.flag _), _ :: _ => throw .needlessValue
  | some (.parameter parameter), [] =>
    return { given := ← progress.settle, pending := some { parameter, value := none } }
  | some (.parameter parameter), _ :: value =>
    return { given := ← (← progress.settle).set parameter (String.ofList value), pending := none }
  | none, _ => throw .unknownArgument

/-- An argument that begins with one dash: the letters of options, of which the first one ends the
program. -/
def Progress.short (progress : Progress) (letter : Char) : Except UsageError Progress :=
  match lettered? letter with
  | some flag => progress.raise flag
  | none => throw .unknownArgument

/-- An argument without a name: the value that an option waits for. -/
def Progress.plain (progress : Progress) (argument : String) : Except UsageError Progress :=
  match progress.pending with
  | some { parameter, value := none } =>
    return { progress with pending := some { parameter, value := some argument } }
  | _ => throw .unknownArgument

/-- One argument more. -/
def Progress.add (progress : Progress) (argument : String) : Except UsageError Progress :=
  match argument.toList with
  | '-' :: '-' :: content => progress.long content
  | '-' :: letter :: _ => progress.short letter
  | _ => progress.plain argument

/-- All arguments up to two dashes alone, after which there may be no more. -/
def Progress.addAll (progress : Progress) : List String → Except UsageError Progress
  | [] => return progress
  | "--" :: rest => if rest.isEmpty then return progress else throw .unknownArgument
  | argument :: rest => do (← progress.add argument).addAll rest

end CommandLine

/-- What the command line says. -/
structure Options where
  logLevel : LogLevel
  logFile : Option FilePath
  logJson : Bool
  config : Option FilePath
  deriving DecidableEq, Repr

namespace Options

open CommandLine

/-- The options that arguments give. -/
def ofArguments (arguments : List String) : Except UsageError Options := do
  let given ← (← Progress.initial.addAll arguments).settle
  return {
    logLevel := given.logLevel.getD .info
    logFile := given.logFile.map .ofText
    logJson := given.logJson
    config := given.config.map .ofText }

/-- The directory and the name of a log file. What has no directory lies in the present one, and
what has no name gets one. -/
def logLocation (path : FilePath) : FilePath × String :=
  ((path.parent?.filter (·.octets ≠ [])).getD (.ofText "."),
    (path.fileName?.bind Utf8.decode?).getD "hansei-lsp.log")

end Options
end IssueRelay
