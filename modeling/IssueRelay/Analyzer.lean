import IssueRelay.Files.Path
import IssueRelay.Issue.Record
import IssueRelay.Json.Parser
import IssueRelay.Text.Blank

/-!
# External analyzers

An analyzer is a program that gets the text of a file and writes the issues it finds, one to a line,
as JSON. Blank lines and lines that hold no issue are skipped. An analysis fails if there is no
program to run, if it cannot be run, if it writes a line that is no text, or if it does not exit
with status zero; whatever was reported until then has been reported.
-/

namespace IssueRelay

/-- How a program ended. -/
inductive ExitStatus
  | code (value : UInt8)
  | signal (number : Nat)
  deriving DecidableEq, Repr

/-- Why a program cannot be run. -/
inductive SpawnError
  | notFound
  | notPermitted
  deriving DecidableEq, Repr

/-- Why an analysis failed. -/
inductive AnalysisError
  | notConfigured
  | spawn (program : String) (cause : SpawnError)
  | communication
  | exit (status : ExitStatus)
  deriving DecidableEq, Repr

namespace ExitStatus

/-- The names of the signals that end a program. -/
def signalNames : List (Nat × String) :=
  [(1, "SIGHUP"), (2, "SIGINT"), (3, "SIGQUIT"), (4, "SIGILL"), (5, "SIGTRAP"), (6, "SIGABRT"),
    (7, "SIGBUS"), (8, "SIGFPE"), (9, "SIGKILL"), (10, "SIGUSR1"), (11, "SIGSEGV"),
    (12, "SIGUSR2"), (13, "SIGPIPE"), (14, "SIGALRM"), (15, "SIGTERM"), (16, "SIGSTKFLT"),
    (24, "SIGXCPU"), (25, "SIGXFSZ"), (26, "SIGVTALRM"), (27, "SIGPROF"), (29, "SIGIO"),
    (30, "SIGPWR"), (31, "SIGSYS")]

/-- How a program ended, in words. -/
def text : ExitStatus → String
  | .code value => "exit status: " ++ toString value.toNat
  | .signal number =>
    "signal: " ++ toString number
      ++ ((signalNames.lookup number).map fun name => " (" ++ name ++ ")").getD ""

end ExitStatus

/-- The wording of the system for a program that cannot be run. -/
def SpawnError.message : SpawnError → String
  | .notFound => "No such file or directory (os error 2)"
  | .notPermitted => "Permission denied (os error 13)"

/-- The wording of a failure. -/
def AnalysisError.message : AnalysisError → String
  | .notConfigured => "No analyzer command configured"
  | .spawn program cause => "Failed to start analyzer '" ++ program ++ "': " ++ cause.message
  | .communication => "Failed to communicate with analyzer"
  | .exit status => "Analyzer exited with " ++ status.text

/-- The command that runs an analyzer: a program and its arguments. -/
structure Analyzer where
  command : List String
  deriving DecidableEq, Repr

namespace Analyzer

/-- The analyzer of a workspace that has none. -/
def none : Analyzer :=
  ⟨[]⟩

/-- Whether there is a program to run. -/
def isConfigured (analyzer : Analyzer) : Bool :=
  !analyzer.command.isEmpty

/-- The issue that a line holds. -/
def issueOfLine? (line : String) : Option Issue :=
  (Json.parseText? (trimBlank line)).bind Issue.read?

/-- The issues that lines hold, up to the first line that is no text, and whether there is none
such. -/
def readLines : List Octets → List Issue × Bool
  | [] => ([], true)
  | line :: rest =>
    match Utf8.decode? line with
    | some text =>
      let (issues, readable) := readLines rest
      ((issueOfLine? text).toList ++ issues, readable)
    | .none => ([], false)

/-- The lines of an output. -/
def lines (output : Octets) : List Octets :=
  output.splitOn 0x0A

/-- Why a program cannot be run for which the system has no file: a path without names is a
directory. -/
def spawnError (program : String) : SpawnError :=
  match (FilePath.ofText program).components with
  | [] => .notFound
  | steps => if steps.any fun step => step matches .name _ then .notFound else .notPermitted

/-- Whether a program has done its work. -/
def verdict (status : ExitStatus) : Except AnalysisError Unit :=
  if status = .code 0 then .ok () else .error (.exit status)

/-- What comes of a program that writes an output and ends: the issues reported, in order, and the
outcome. -/
def outcome (output : Octets) (status : ExitStatus) : List Issue × Except AnalysisError Unit :=
  let (issues, readable) := readLines (lines output)
  (issues, if readable then verdict status else .error .communication)

/-- What comes of an analysis. What its program does, when there is one, is for the system to say:
the output it writes and how it ends, or that it cannot be run. -/
def analyze (analyzer : Analyzer)
    (run : String → List String → Except SpawnError (Octets × ExitStatus)) :
    List Issue × Except AnalysisError Unit :=
  match analyzer.command with
  | [] => ([], .error .notConfigured)
  | program :: arguments =>
    match run program arguments with
    | .ok (output, status) => outcome output status
    | .error cause => ([], .error (.spawn program cause))

end Analyzer
end IssueRelay
