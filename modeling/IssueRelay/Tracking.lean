import IssueRelay.Dictionary
import IssueRelay.Issue.Basic

/-!
# Tracking reported issues

A server remembers the issues of earlier analyses. Reported issues are matched with them one to
one: first those with equal rule, line and message, then those with equal rule and message, so an
issue keeps its server key after the code above it has moved. Within each round every reported
issue, in order, takes the first server issue that fits and is still free.
-/

namespace IssueRelay

namespace Tracking

/-- Whether a server issue is the reported one, unmoved. -/
def sameLine (issue : Issue) (known : ServerIssue) : Bool :=
  known.ruleKey = issue.ruleKey && known.line = some issue.range.startLine
    && known.message = issue.message

/-- Whether a server issue is the reported one, on any line. -/
def sameMessage (issue : Issue) (known : ServerIssue) : Bool :=
  known.ruleKey = issue.ruleKey && known.message = issue.message

/-- The first server issue that fits and is free, by its place. -/
def firstFree? (fits : Issue → ServerIssue → Bool) (known : List ServerIssue) (taken : List Nat)
    (issue : Issue) : Option Nat :=
  (known.zipIdx.find? fun (candidate, place) => !taken.contains place && fits issue candidate).map
    Prod.snd

/-- One round: reported issues with the places they have, and with those they take now. -/
def round (fits : Issue → ServerIssue → Bool) (known : List ServerIssue) :
    List Nat → List (Issue × Option Nat) → List (Issue × Option Nat)
  | _, [] => []
  | taken, (issue, some place) :: rest => (issue, some place) :: round fits known taken rest
  | taken, (issue, none) :: rest =>
    match firstFree? fits known taken issue with
    | some place => (issue, some place) :: round fits known (place :: taken) rest
    | none => (issue, none) :: round fits known taken rest

/-- The places of the server issues matched with reported issues, after both rounds. -/
def places (known : List ServerIssue) (issues : List Issue) : List (Issue × Option Nat) :=
  let unmoved := round sameLine known [] (issues.map (·, none))
  round sameMessage known (unmoved.filterMap Prod.snd) unmoved

/-- What the server issue at a place says. -/
def statusAt (known : List ServerIssue) (place : Option Nat) : ServerStatus :=
  match place.bind (known[·]?) with
  | some found => { key := some found.key, resolved := found.resolved }
  | none => .unknown

/-- What is said of every reported issue, in order. -/
def track (known : List ServerIssue) (issues : List Issue) : List TrackedIssue :=
  (places known issues).zipIdx.map fun ((issue, place), index) =>
    { index, issue, status := statusAt known place }

/-- The status of every reported issue, in order. -/
def statuses (known : List ServerIssue) (issues : List Issue) : List ServerStatus :=
  (track known issues).map TrackedIssue.status

/-- A round answers for every reported issue, in order. -/
theorem map_fst_round (fits : Issue → ServerIssue → Bool) (known : List ServerIssue)
    (taken : List Nat) (issues : List (Issue × Option Nat)) :
    (round fits known taken issues).map Prod.fst = issues.map Prod.fst := by
  fun_induction round fits known taken issues <;> simp_all

/-- The reported issues keep their order. -/
theorem map_fst_places (known : List ServerIssue) (issues : List Issue) :
    (places known issues).map Prod.fst = issues := by
  simp [places, map_fst_round, Function.comp_def]

/-- Something is said of every reported issue. -/
theorem length_track (known : List ServerIssue) (issues : List Issue) :
    (track known issues).length = issues.length := by
  have kept := congrArg List.length (map_fst_places known issues)
  simpa [track] using kept

/-- What is said of an issue is said under its place. -/
theorem map_index_track (known : List ServerIssue) (issues : List Issue) :
    (track known issues).map TrackedIssue.index = List.range issues.length := by
  have length : (places known issues).length = issues.length := by
    rw [← List.length_map Prod.fst, map_fst_places]
  rw [← length, List.range_eq_range', ← List.zipIdx_map_snd, track, List.map_map]
  rfl

end Tracking

/-- The server issues last heard of, by the relative path of their file. -/
structure History where
  known : Dictionary String (List ServerIssue)

namespace History

/-- Nothing heard of any file. -/
def empty : History :=
  ⟨∅⟩

/-- The server issues known for a path. -/
def get (history : History) (path : String) : List ServerIssue :=
  (history.known.get? path).getD []

/-- Replaces the server issues known for a path. -/
def update (history : History) (path : String) (issues : List ServerIssue) : History :=
  ⟨history.known.insert path issues⟩

/-- An update is what is known of its path afterwards. -/
@[simp] theorem get_update_self (history : History) (path : String) (issues : List ServerIssue) :
    (history.update path issues).get path = issues := by
  simp [get, update]

/-- An update leaves other paths as they are. -/
theorem get_update_of_ne (history : History) {path other : String} (issues : List ServerIssue)
    (different : other ≠ path) : (history.update path issues).get other = history.get other := by
  simp [get, update, Dictionary.get?_insert_of_ne _ _ different]

end History
end IssueRelay
