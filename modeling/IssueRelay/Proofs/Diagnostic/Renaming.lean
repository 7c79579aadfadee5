import IssueRelay.Proofs.Diagnostic.OfIssues
import IssueRelay.Proofs.Issue.Order
import Mathlib.Data.Set.Function

/-!
# Other identifiers

An identifier tells an issue from the others of its file, and the order of identifiers is the order
in which issues were reported. Under other identifiers in the same order a file has the same issues,
and its diagnostics are the same but for the data that name them
(`IssueRelay.Diagnostic.ofIssues_rename`).
-/

namespace IssueRelay

/-! ## The same place in another list -/

section Counterpart

variable {α : Type} [DecidableEq α]

/-- What stands in one list where something stands in another. -/
def counterpart (own other : List α) (item : α) : α :=
  (other[own.idxOf item]?).getD item

variable {own other before after : List α} {item : α}

/-- In lists without repetitions, what stands at a place corresponds to what stands at the same
place of the other. -/
theorem counterpart_getElem (distinct : own.Nodup) {place : Nat} (inOwn : place < own.length)
    (inOther : place < other.length) : counterpart own other own[place] = other[place] := by
  rw [counterpart, distinct.idxOf_getElem place inOwn, List.getElem?_eq_getElem inOther,
    Option.getD_some]

/-- The beginnings of two lists correspond. -/
theorem map_counterpart (distinct : own.Nodup) (begins : before <+: own) (others : after <+: other)
    (same : before.length = after.length) : before.map (counterpart own other) = after := by
  apply List.ext_getElem
  · rw [List.length_map, same]
  · intro place inBefore inAfter
    rw [List.length_map] at inBefore
    rw [List.getElem_map, begins.getElem inBefore, others.getElem inAfter]
    exact counterpart_getElem distinct _ _

end Counterpart

/-- What is told apart in a list stays in its place under other names. -/
theorem idxOf_map_of_injOn {α β : Type} [DecidableEq α] [DecidableEq β] {name : α → β}
    {items : List α} (injective : Set.InjOn name {item | item ∈ items}) {item : α}
    (member : item ∈ items) : (items.map name).idxOf (name item) = items.idxOf item := by
  induction items with
  | nil => cases member
  | cons first rest ih =>
      rw [List.map_cons]
      by_cases same : first = item
      · rw [same, List.idxOf_cons_self, List.idxOf_cons_self]
      · have different : name first ≠ name item := fun equal =>
          same (injective List.mem_cons_self member equal)
        have later : item ∈ rest := (List.mem_cons.mp member).resolve_left (Ne.symm same)
        rw [List.idxOf_cons_ne _ different, List.idxOf_cons_ne _ same,
          ih (injective.mono fun _ => List.mem_cons_of_mem _) later]

/-! ## Sets of issues -/

/-- Whether the identifiers in a list have the same order under other names. -/
def KeepsOrder (rename : IssueId → IssueId) (ids : List IssueId) : Prop :=
  ∀ left ∈ ids, ∀ right ∈ ids, (rename left).le (rename right) = left.le right

/-- A renaming that keeps the order takes no two identifiers to one. -/
theorem KeepsOrder.injective {rename : IssueId → IssueId} {ids : List IssueId}
    (keeps : KeepsOrder rename ids) {left right : IssueId} (inLeft : left ∈ ids)
    (inRight : right ∈ ids) (same : rename left = rename right) : left = right := by
  have below : left.le right = true := by
    rw [← keeps left inLeft right inRight, same]
    exact decide_eq_true (UInt64.le_refl _)
  have above : right.le left = true := by
    rw [← keeps right inRight left inLeft, same]
    exact decide_eq_true (UInt64.le_refl _)
  exact congrArg IssueId.mk
    (UInt64.le_antisymm (of_decide_eq_true below) (of_decide_eq_true above))

/-- Between ascending lists of one length, the correspondence keeps the order. -/
theorem keepsOrder_counterpart {own other : List IssueId} (ascending : Ascending own)
    (others : Ascending other) (same : own.length = other.length) :
    KeepsOrder (counterpart own other) own := by
  intro left inLeft right inRight
  obtain ⟨first, inFirst, rfl⟩ := List.mem_iff_getElem.mp inLeft
  obtain ⟨second, inSecond, rfl⟩ := List.mem_iff_getElem.mp inRight
  rw [counterpart_getElem ascending.nodup inFirst (same ▸ inFirst),
    counterpart_getElem ascending.nodup inSecond (same ▸ inSecond), Bool.eq_iff_iff,
    ascending.le_iff inFirst inSecond, others.le_iff (same ▸ inFirst) (same ▸ inSecond)]

namespace IssueSet

/-- The set with its issues under other identifiers. -/
def rename (f : IssueId → IssueId) (issues : IssueSet) : IssueSet :=
  ⟨issues.entries.map (Prod.map f id)⟩

variable {f : IssueId → IssueId} {ids : List IssueId} {issues : IssueSet}

/-- A set has as many issues under other identifiers. -/
@[simp] theorem size_rename : (issues.rename f).size = issues.size :=
  List.length_map _

section Within

variable (keeps : KeepsOrder f ids) (within : ∀ id ∈ issues.keys, id ∈ ids)

include keeps within

/-- Under identifiers in the same order, the issues stand in the same order. -/
theorem inOrder_rename : (issues.rename f).inOrder = issues.inOrder.map (Prod.map f id) := by
  refine (List.map_mergeSort fun left inLeft right inRight => ?_).symm
  exact (keeps left.1 (within _ (List.mem_map_of_mem inLeft)) right.1
    (within _ (List.mem_map_of_mem inRight))).symm

/-- The issue under an identifier is found under its new one. -/
theorem get?_rename {name : IssueId} (named : name ∈ ids) :
    (rename f issues).get? (f name) = issues.get? name := by
  have same : ∀ entry ∈ issues.entries, decide (f entry.1 = f name) = decide (entry.1 = name) := by
    intro entry member
    have inIds := within _ (List.mem_map_of_mem member)
    exact decide_eq_decide.mpr ⟨keeps.injective inIds named, congrArg f⟩
  unfold Dictionary.get? rename
  dsimp only
  rw [List.find?_map, Option.map_map, ← List.head?_filter, ← List.head?_filter]
  exact congrArg (fun found => found.head?.map Prod.snd) (List.filter_congr same)

/-- Storing an issue and renaming can be done in either order. -/
theorem insert_rename {name : IssueId} (named : name ∈ ids) (found : LocalIssue) :
    (rename f issues).insert (f name) found = rename f (issues.insert name found) := by
  have others : (rename f issues).erase (f name) = rename f (issues.erase name) := by
    unfold Dictionary.erase rename
    rw [List.filter_map]
    congr 2
    apply List.filter_congr
    intro entry member
    have inIds := within _ (List.mem_map_of_mem member)
    have same : f entry.1 = f name ↔ entry.1 = name :=
      ⟨keeps.injective inIds named, congrArg f⟩
    simp [same]
  rw [Dictionary.insert, others]
  rfl

/-- Setting a status and renaming can be done in either order. -/
theorem setStatus_rename {name : IssueId} (named : name ∈ ids) (status : ServerStatus) :
    (rename f issues).setStatus (f name) status = rename f (issues.setStatus name status) := by
  rw [setStatus, setStatus, get?_rename keeps within named]
  cases issues.get? name with
  | none => rfl
  | some found =>
      dsimp only
      split
      · rfl
      · exact insert_rename keeps within named _

/-- Taking over answers and renaming can be done in either order. -/
theorem takeOver_rename {names : List IssueId} (named : ∀ name ∈ names, name ∈ ids)
    (results : List TrackedIssue) :
    (rename f issues).takeOver (names.map f) results =
      rename f (issues.takeOver names results) := by
  induction results generalizing issues with
  | nil => rfl
  | cons result rest ih =>
      rw [takeOver_cons, takeOver_cons, List.getElem?_map]
      cases present : names[result.index]? with
      | none => exact ih within
      | some name =>
          have own := named name (List.mem_of_getElem? present)
          rw [Option.map_some]
          dsimp only
          rw [setStatus_rename keeps within own]
          exact ih fun other member => within other <|
            keys_subset_of_asReported (get?_asReported_setStatus issues _ _) member

end Within

end IssueSet

/-! ## Diagnostics -/

namespace Diagnostic

/-- A diagnostic of a local issue that names it otherwise. -/
def rename (f : IssueId → IssueId) (diagnostic : Diagnostic) : Diagnostic :=
  if diagnostic.source = some localSource then
    match diagnostic.dataText?.bind IssueId.ofText? with
    | some name => { diagnostic with data := some (.text (f name).text) }
    | none => diagnostic
  else diagnostic

variable {f : IssueId → IssueId} (uri : Url)

/-- The diagnostic of a reported issue, renamed, is that of the issue under its new identifier. -/
theorem rename_ofLocal (name : IssueId) (issue : Issue) :
    (ofLocal uri name issue).rename f = ofLocal uri (f name) issue := by
  have named : (ofLocal uri name issue).dataText?.bind IssueId.ofText? = some name :=
    IssueId.ofText?_text name
  have own : (ofLocal uri name issue).source = some localSource := rfl
  rw [rename, if_pos own, named]
  rfl

/-- The diagnostic of a vulnerability has no identifier to rename. -/
theorem rename_ofTaint (issue : TaintIssue) :
    (ofTaint uri issue).rename f = ofTaint uri issue := by
  have foreign : some taintSource ≠ some localSource := by decide
  exact if_neg foreign

/-- Renaming does not count when diagnostics are sorted. -/
theorem mayPrecede_rename (left right : Diagnostic) :
    mayPrecede (left.rename f) (right.rename f) = mayPrecede left right := by
  have kept : ∀ diagnostic : Diagnostic, (diagnostic.rename f).span = diagnostic.span ∧
      (diagnostic.rename f).message = diagnostic.message := by
    intro diagnostic
    unfold rename
    split
    · split
      · exact ⟨rfl, rfl⟩
      · exact ⟨rfl, rfl⟩
    · exact ⟨rfl, rfl⟩
  rw [mayPrecede, mayPrecede, (kept left).1, (kept left).2, (kept right).1, (kept right).2]

/-- The list of a file whose issues have other identifiers in the same order. -/
theorem ofIssues_rename {ids : List IssueId} {issues : IssueSet} (keeps : KeepsOrder f ids)
    (within : ∀ name ∈ issues.keys, name ∈ ids) (taint : List TaintIssue) :
    ofIssues uri (issues.rename f) taint = (ofIssues uri issues taint).map (rename f) := by
  unfold ofIssues
  dsimp only
  rw [IssueSet.inOrder_rename keeps within, List.filter_map, List.map_map,
    List.map_mergeSort fun left _ right _ => (mayPrecede_rename left right).symm, List.map_append,
    List.map_map, List.map_map]
  refine congrArg (List.mergeSort · mayPrecede) (congrArg₂ List.append ?_ ?_)
  · exact List.map_congr_left fun entry _ => (rename_ofLocal uri entry.1 entry.2.issue).symm
  · exact List.map_congr_left fun issue _ => (rename_ofTaint uri issue).symm

end Diagnostic

end IssueRelay
