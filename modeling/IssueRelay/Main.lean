import IssueRelay.Session.Envelope

/-!
# The program

Serves one editor over standard input and output. The host of the server has neither programs to run
nor a network, so passes fail and fetches bring nothing; it reads files and the clock.
-/

namespace IssueRelay

open LanguageServer (Effect)

/-- A running session and the moment it was last told of. -/
structure Host where
  session : Session
  configPath : Option FilePath
  moment : Nat

namespace Host

/-- What the program says about its use. -/
def usage : String :=
  "Usage: " ++ CommandLine.programName
    ++ " [--log-level LEVEL] [--log-file FILE] [--log-json] [--config PATH]\n"

/-- What a refused command line is told. -/
def complaint : UsageError → String
  | .invalidValue => "error: invalid or missing value for an option"
  | .repeated => "error: an option cannot be used multiple times"
  | .needlessValue => "error: a value for an option that takes none"
  | .unknownArgument => "error: unexpected argument"
  | .helpRequested | .versionRequested => ""

/-- What the file at a path holds. -/
def readFile (path : FilePath) : IO (Except ReadError Octets) := do
  try
    return .ok (← IO.FS.readBinFile path.text).toList
  catch _ =>
    return .error .notFound

/-- The files at the given paths, and no others. -/
def gather (paths : List FilePath) : IO FileSystem := do
  let found ← paths.mapM fun path => return (path, ← readFile path)
  return {
    exists? := fun path => found.any fun entry => entry.1 = path && entry.2.toOption.isSome
    read := fun path => (found.lookup path).getD (.error .notFound) }

/-- What the machine says at the moment. -/
def surroundings (host : Host) : IO Surroundings := do
  let above := (host.session.server.root.map Config.upwards).getD []
  let candidates := host.configPath.toList ++ above.map (·.join Config.fileName)
  let home := (← IO.getEnv "HOME").getD ""
  let credentials ← readFile ((FilePath.ofText home).join (.ofText ".hansei/credentials"))
  return {
    files := ← gather candidates
    configPath := host.configPath
    tokens := {
      environment := ← IO.getEnv "HANSEI_TOKEN"
      credentials := credentials.toOption.bind Utf8.decode? } }

/-- Sends a message to the editor. -/
def send (message : Json) : IO Unit := do
  let output ← IO.getStdout
  output.putStr (Session.framed message)
  output.flush

/-- No program can be run on this host. -/
def runProgram (program : String) (_ : List String) : Except SpawnError (Octets × ExitStatus) :=
  .error (Analyzer.spawnError program)

/-- How something begun by the server ends on this host. -/
def ending (session : Session) : Effect → Transition LanguageServer Effect
  | .beginPass pass (.program analyzer) =>
    LanguageServer.carryOut pass.number (analyzer.analyze runProgram)
  | .beginPass pass .embedded => LanguageServer.endPass pass.number false
  | .beginFetch number .. =>
    match session.server.fetch? number with
    | some { purpose := .history .., .. } => LanguageServer.endHistory number none
    | _ => LanguageServer.endRefresh number none
  | _ => Transition.idle

/-- Carries out effects, and what follows from them. -/
partial def perform (session : Session) : List Effect → IO Session
  | [] => return session
  | effect :: rest => do
    if let some (method, params) := effect.notification? then
      send (Session.notification method params)
    let (session, more) := Session.onServer (ending session effect) session
    perform session (rest ++ more)

/-- Lets the time pass that has passed. -/
def catchUp (host : Host) : IO Host := do
  let moment ← IO.monoMsNow
  let (session, effects) :=
    Session.onServer (LanguageServer.passTime (moment - host.moment)) host.session
  return { host with session := ← perform session effects, moment }

/-- Answers a message. -/
def answer (host : Host) (call : Session.Call) : IO Host := do
  let (session, effects, answer) :=
    host.session.receive (← host.surroundings) call.id.isSome call.method call.params
  if let some id := call.id then
    send (Session.response id answer)
  return { host with session := ← perform session effects }

/-- The length of the next message, after its header; none at the end of the input. -/
partial def readHeader (input : IO.FS.Stream) (length : Option Nat) : IO (Option Nat) := do
  let line ← input.getLine
  if line.isEmpty then return none
  else if (trimBlank line).isEmpty then return some (length.getD 0)
  else readHeader input (Session.contentLength? line <|> length)

/-- So many octets of the input. -/
partial def readBody (input : IO.FS.Stream) (length : Nat) (read : Octets) : IO Octets := do
  if length = 0 then return read
  else
    let part ← input.read length.toUSize
    if part.isEmpty then return read
    else readBody input (length - part.size) (read ++ part.toList)

/-- Answers messages until the input ends. -/
partial def serve (input : IO.FS.Stream) (host : Host) : IO Unit := do
  if let some length ← readHeader input none then
    let body ← readBody input length []
    let host ← host.catchUp
    match Session.Call.ofOctets? body with
    | some call => serve input (← host.answer call)
    | none => serve input host

end Host
end IssueRelay

open IssueRelay in
/-- Reads the command line and serves the editor. -/
def main (arguments : List String) : IO UInt32 := do
  match Options.ofArguments arguments with
  | .ok options =>
    let host := { session := .initial, configPath := options.config, moment := ← IO.monoMsNow }
    Host.serve (← IO.getStdin) host
    return 0
  | .error .helpRequested =>
    IO.print Host.usage
    return 0
  | .error .versionRequested =>
    IO.print CommandLine.versionText
    return 0
  | .error error =>
    IO.eprintln (Host.complaint error)
    return 2
