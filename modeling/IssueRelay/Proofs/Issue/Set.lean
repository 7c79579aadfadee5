import IssueRelay.Issue.Set
import IssueRelay.Proofs.Dictionary

/-!
# What a change of status leaves alone

A set of reported issues that is matched again with the issues of a server keeps its identifiers,
the records of its issues and the versions of the text they were found in; only the status of an
issue may be another.
-/

namespace IssueRelay

/-- A reported issue without its status on the server: its record, and the version of the text it
was found in. -/
def LocalIssue.asReported (found : LocalIssue) : Issue × Int32 :=
  (found.issue, found.documentVersion)

namespace IssueSet

/-- The set without the status of its issues. -/
def asReported (issues : IssueSet) : Dictionary IssueId (Issue × Int32) :=
  issues.mapValues LocalIssue.asReported

/-- Without the status, the same identifiers are found. -/
theorem get?_asReported (issues : IssueSet) (id : IssueId) :
    issues.asReported.get? id = (issues.get? id).map LocalIssue.asReported :=
  Dictionary.get?_mapValues _ _ _

/-- A set in which the same has been reported has the same identifiers. -/
theorem keys_subset_of_asReported {left right : IssueSet}
    (same : ∀ id, left.asReported.get? id = right.asReported.get? id) :
    left.keys ⊆ right.keys := by
  intro id member
  have present : (left.asReported.get? id).isSome := by
    rw [get?_asReported, Option.isSome_map]
    exact Dictionary.mem_keys_iff.mp member
  rw [same, get?_asReported, Option.isSome_map] at present
  exact Dictionary.mem_keys_iff.mpr present

/-- A set has as many identifiers as issues. -/
theorem length_keys (issues : IssueSet) : issues.keys.length = issues.size :=
  List.length_map _

/-- Putting a set in order neither adds issues nor loses any. -/
theorem inOrder_perm (issues : IssueSet) : issues.inOrder.Perm issues.entries :=
  List.mergeSort_perm _ _

/-! ## One status -/

section SetStatus

variable (issues : IssueSet) (id : IssueId) (status : ServerStatus)

/-- The issue whose status is set keeps its record and its version. -/
theorem get?_setStatus_self : (issues.setStatus id status).get? id =
    (issues.get? id).map fun found => { found with status } := by
  unfold setStatus
  cases found : issues.get? id with
  | none => simpa using found
  | some present =>
      by_cases same : present.status = status
      · subst same
        simp [found]
      · simp [same]

/-- Setting the status of an issue leaves the others. -/
theorem get?_setStatus_of_ne {id other : IssueId} (different : other ≠ id) :
    (issues.setStatus id status).get? other = issues.get? other := by
  unfold setStatus
  cases issues.get? id with
  | none => rfl
  | some present =>
      by_cases same : present.status = status
      · simp [same]
      · simp [same, Dictionary.get?_insert_of_ne _ _ different]

/-- Setting a status is not seen in what was reported. -/
theorem get?_asReported_setStatus (other : IssueId) :
    (issues.setStatus id status).asReported.get? other = issues.asReported.get? other := by
  rw [get?_asReported, get?_asReported]
  by_cases same : other = id
  · subst same
    rw [get?_setStatus_self, Option.map_map]
    rfl
  · rw [get?_setStatus_of_ne issues status same]

/-- Setting a status stores no identifier twice. -/
theorem distinct_setStatus {issues : IssueSet} (distinct : issues.Distinct) :
    (issues.setStatus id status).Distinct := by
  unfold setStatus
  split
  · split
    · exact distinct
    · exact distinct.insert _ _
  · exact distinct

end SetStatus

/-! ## All statuses -/

/-- Answers are taken over one after the other, each by the identifier at its index. -/
theorem takeOver_cons (ids : List IssueId) (issues : IssueSet) (result : TrackedIssue)
    (results : List TrackedIssue) :
    issues.takeOver ids (result :: results) =
      (match ids[result.index]? with
        | some id => issues.setStatus id result.status
        | none => issues).takeOver ids results :=
  rfl

/-- Taking over what has been said of issues changes nothing but their status. -/
theorem get?_asReported_takeOver (ids : List IssueId) (results : List TrackedIssue)
    (issues : IssueSet) (id : IssueId) :
    (issues.takeOver ids results).asReported.get? id = issues.asReported.get? id := by
  induction results generalizing issues with
  | nil => rfl
  | cons result rest ih =>
      rw [takeOver_cons, ih]
      split
      · exact get?_asReported_setStatus issues _ _ id
      · rfl

/-- An issue of which nothing is said stays as it is. -/
theorem get?_takeOver_of_unnamed {ids : List IssueId} {results : List TrackedIssue} {id : IssueId}
    (issues : IssueSet) (unnamed : ∀ result ∈ results, ids[result.index]? ≠ some id) :
    (issues.takeOver ids results).get? id = issues.get? id := by
  induction results generalizing issues with
  | nil => rfl
  | cons first rest ih =>
      rw [takeOver_cons, ih _ fun result later => unnamed result (List.mem_cons_of_mem _ later)]
      split
      · rename_i other named
        refine get?_setStatus_of_ne issues _ fun same => unnamed first List.mem_cons_self ?_
        rw [named, same]
      · rfl

/-- Where no identifier and no place is repeated, the issue under an identifier gets the status that
is found for its place, whatever it had before. -/
theorem get?_takeOver {ids : List IssueId} {results : List TrackedIssue} {id : IssueId}
    (issues : IssueSet) (distinct : ids.Nodup)
    (separate : (results.map TrackedIssue.index).Nodup) {result : TrackedIssue}
    (member : result ∈ results) (named : ids[result.index]? = some id) :
    (issues.takeOver ids results).get? id =
      (issues.get? id).map fun found => { found with status := result.status } := by
  have placed : ∀ {place}, ids[place]? = some id → place = result.index := fun {place} again =>
    (List.getElem?_inj (List.getElem?_eq_some_iff.mp again).1 distinct).mp (again.trans named.symm)
  induction results generalizing issues with
  | nil => cases member
  | cons first rest ih =>
      obtain ⟨once, separateRest⟩ := List.nodup_cons.mp separate
      rw [takeOver_cons]
      rcases List.mem_cons.mp member with rfl | later
      · rw [named, get?_takeOver_of_unnamed _ ?_, get?_setStatus_self]
        intro other later again
        exact once (placed again ▸ List.mem_map_of_mem later)
      · rw [ih _ separateRest later]
        split
        · rename_i other others
          have different : id ≠ other := by
            rintro rfl
            exact once (placed others ▸ List.mem_map_of_mem later)
          rw [get?_setStatus_of_ne _ _ different]
        · rfl

/-- Taking over answers stores no identifier twice. -/
theorem distinct_takeOver (ids : List IssueId) (results : List TrackedIssue) {issues : IssueSet}
    (distinct : issues.Distinct) : (issues.takeOver ids results).Distinct := by
  induction results generalizing issues with
  | nil => exact distinct
  | cons result rest ih =>
      rw [takeOver_cons]
      apply ih
      split
      · exact distinct_setStatus _ _ distinct
      · exact distinct

end IssueSet
end IssueRelay
