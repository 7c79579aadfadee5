import IssueRelay.Config.Basic
import IssueRelay.Toml.Document

/-!
# Reading configurations

A configuration is a TOML document with a section for the analyzer, one for the server and one for
notifications. A section is a table of its fields or an array of them in order; in either form it
may say more than is asked for. A point in time in the place of a section says nothing. Names that
nobody asks for are worth a warning, since they may be misspelt.
-/

namespace IssueRelay.Config

open Toml (Value)

/-- Reads a value of one type. -/
abbrev Reader (α : Type) :=
  Value → Option α

/-- A text. -/
def text? : Reader String
  | .text content => some content
  | _ => none

/-- A truth value. -/
def truth? : Reader Bool
  | .boolean value => some value
  | _ => none

/-- A whole number that is not negative. -/
def natural? : Reader UInt64
  | .integer value => if 0 ≤ value then some (UInt64.ofNat value.toNat) else none
  | _ => none

/-- A list of texts. -/
def texts? : Reader (List String)
  | .array items => items.mapM text?
  | _ => none

/-- What a section says of its fields, by name. -/
def fields? (names : List String) : Reader (String → Option Value)
  | .table entries => some fun name => if names.contains name then entries.lookup name else none
  | .array items => some fun name => (names.zip items).lookup name
  | .moment _ => some fun _ => none
  | _ => none

/-- A field with a default for when it is left out. -/
def default? {α : Type} (absent : α) (read : Reader α) : Option Value → Option α
  | none => some absent
  | some value => read value

/-- A field that may be left out. -/
def option? {α : Type} (read : Reader α) : Option Value → Option (Option α) :=
  default? none fun value => (read value).map some

/-- The fields of the section for the analyzer. -/
def analyzerNames : List String :=
  ["command", "debounce_ms"]

/-- The fields of the section for the server. -/
def serverNames : List String :=
  ["url", "project_key", "branch", "token"]

/-- The fields of the section for notifications. -/
def notificationNames : List String :=
  ["first_secret_detected"]

/-- The section for the analyzer. -/
def analyzer? : Reader AnalyzerConfig := fun value => do
  let field ← fields? analyzerNames value
  return {
    command := ← default? [] texts? (field "command")
    debounce := ← default? Debouncer.standardDelay natural? (field "debounce_ms") }

/-- The section for the server, in which URL and project have to be there. -/
def server? : Reader ServerConfig := fun value => do
  let field ← fields? serverNames value
  return {
    url := ← (field "url").bind text?
    projectKey := ← (field "project_key").bind text?
    branch := ← option? text? (field "branch")
    token := ← option? text? (field "token") }

/-- The section for notifications. -/
def notifications? : Reader Bool := fun value => do
  let field ← fields? notificationNames value
  default? false truth? (field "first_secret_detected")

/-- The configuration that the entries of a document describe. -/
def ofEntries? (entries : List (String × Value)) : Option Config := do
  return {
    analyzer := ← default? .standard analyzer? (entries.lookup "analyzer")
    server := ← option? server? (entries.lookup "server")
    secretSeen := ← default? false notifications? (entries.lookup "notifications") }

/-- A name that nobody asks for, in a section or outside of all. -/
structure Warning where
  within : Option String
  name : String
  deriving DecidableEq, Repr

/-- The wording of a warning. -/
def Warning.text (warning : Warning) : String :=
  "Unknown config option"
    ++ ((warning.within.map fun name => " in [" ++ name ++ "]").getD "")
    ++ ": '" ++ warning.name ++ "'"

/-- The names that are known outside of all sections. -/
def knownNames : List String :=
  ["analyzer", "server", "notifications"]

/-- The sections, and the names that are known in each. -/
def knownFields : List (String × List String) :=
  [("analyzer", ["command", "debounce_ms"]), ("server", ["url", "project_key", "branch", "token"]),
    ("notifications", ["first_secret_detected"])]

/-- The names of entries that are none of the known ones, in the order of their characters. -/
def unknownNames (known : List String) (entries : List (String × Value)) : List String :=
  ((entries.map Prod.fst).filter (!known.contains ·)).mergeSort (· ≤ ·)

/-- The warnings about one section, if it is a table. -/
def sectionWarnings (entries : List (String × Value)) (name : String) (known : List String) :
    List Warning :=
  match entries.lookup name with
  | some (.table fields) => (unknownNames known fields).map ({ within := some name, name := · })
  | _ => []

/-- The warnings about a document: its own names first, then those of its sections. -/
def warnings (entries : List (String × Value)) : List Warning :=
  (unknownNames knownNames entries).map ({ within := none, name := · })
    ++ knownFields.flatMap fun (name, known) => sectionWarnings entries name known

/-- The configuration that a text describes. -/
def ofText? (text : String) : Option Config :=
  (Toml.read? text).bind ofEntries?

/-- The warnings about a text; there are none about one that is no document. -/
def warningsOfText (text : String) : List Warning :=
  ((Toml.read? text).map warnings).getD []

end IssueRelay.Config
