import IssueRelay.Diagnostic.OfIssues
import IssueRelay.Proofs.Issue.Set

/-!
# The issues behind a list of diagnostics

The list of diagnostics of a file shows each unresolved local issue and each taint issue once, in
whatever order.
-/

namespace IssueRelay.Diagnostic

variable (uri : Url) (issues : IssueSet) (taint : List TaintIssue)

/-- The unresolved issues of a set, in the order in which they are kept. -/
def unresolved : List (IssueId × LocalIssue) :=
  issues.entries.filter fun (_, found) => !found.status.resolved

/-- A list shows nothing twice and leaves nothing out. -/
theorem ofIssues_perm :
    (ofIssues uri issues taint).Perm
      ((unresolved issues).map (fun (id, found) => ofLocal uri id found.issue) ++
        taint.map (ofTaint uri)) := by
  have sorted := List.mergeSort_perm (((issues.inOrder.filter fun (_, found) =>
    !found.status.resolved).map fun (id, found) => ofLocal uri id found.issue) ++
      taint.map (ofTaint uri)) mayPrecede
  exact sorted.trans (((issues.inOrder_perm.filter _).map _).append_right _)

/-- A file without issues shows nothing. -/
theorem ofIssues_empty : ofIssues uri ∅ [] = [] :=
  List.perm_nil.mp (ofIssues_perm uri ∅ [])

variable {uri issues taint}

/-- A diagnostic in a list is that of a local issue or that of a taint issue. -/
theorem mem_ofIssues {diagnostic : Diagnostic} (shown : diagnostic ∈ ofIssues uri issues taint) :
    (∃ id found, (id, found) ∈ issues.entries ∧ diagnostic = ofLocal uri id found.issue) ∨
      ∃ issue ∈ taint, diagnostic = ofTaint uri issue := by
  have listed := (ofIssues_perm uri issues taint).mem_iff.mp shown
  rcases List.mem_append.mp listed with isLocal | isTaint
  · obtain ⟨⟨id, found⟩, kept, rfl⟩ := List.mem_map.mp isLocal
    exact .inl ⟨id, found, List.mem_of_mem_filter kept, rfl⟩
  · obtain ⟨issue, member, rfl⟩ := List.mem_map.mp isTaint
    exact .inr ⟨issue, member, rfl⟩

end IssueRelay.Diagnostic
