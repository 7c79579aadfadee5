import IssueRelay.Issue.Basic

/-!
# Displayed messages

The message of an issue says how much there is to see besides its own place. One flow, or several
flows of a single location each, count as locations; any other flows count as flows.
-/

namespace IssueRelay

/-- An item in the singular or the plural. -/
def pluralize (count : Nat) (item : String) : String :=
  if count = 1 then item else item ++ "s"

/-- A message followed by how many items belong to it, if there are any. -/
def withCount (message : String) (count : Nat) (item : String) : String :=
  if count = 0 then message
  else message ++ " (" ++ toString count ++ " " ++ pluralize count item ++ ")"

/-- A message followed by what its flows come to. -/
def flowMessage (message : String) : List Flow → String
  | [] => message
  | [flow] => withCount message flow.locations.length "location"
  | flows =>
    if flows.all fun flow => flow.locations.length = 1 then
      withCount message flows.length "location"
    else withCount message flows.length "flow"

end IssueRelay
