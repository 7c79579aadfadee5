import IssueRelay.Proofs.Diagnostic.OfIssues
import IssueRelay.Proofs.Issue.Order
import IssueRelay.Proofs.Text.ByteOrder
import Mathlib.Data.Prod.Lex

/-!
# The list of diagnostics as an ordered merge

The unresolved local issues and the taint issues of a file can be listed in one way only so that
they stand by line, then by displayed message, then local ones before taint ones, by identifier and
in the order of the server. The diagnostics of a file are those of this list, in whatever order its
issues are kept (`IssueRelay.Diagnostic.ofIssues_is_ordered_merge`): the sort by line and message is
stable, and what it is given stands by identifier already.
-/

namespace IssueRelay

/-- An issue that an editor is shown: a local one under its identifier, or the taint issue in a
place of the list of the server. -/
inductive ShownIssue
  | reported (id : IssueId) (issue : Issue)
  | taint (place : Nat) (issue : TaintIssue)
  deriving DecidableEq

namespace ShownIssue

/-- The line on which an issue starts, counted from zero. -/
def line : ShownIssue → Nat
  | .reported _ issue => issue.range.startLine.toNat - 1
  | .taint _ issue => issue.range.startLine.toNat - 1

/-- The displayed message of an issue. -/
def message : ShownIssue → String
  | .reported _ issue => flowMessage issue.message issue.flows
  | .taint _ issue => flowMessage issue.message issue.flows

/-- The diagnostic of an issue. -/
def diagnostic (uri : Url) : ShownIssue → Diagnostic
  | .reported id issue => .ofLocal uri id issue
  | .taint _ issue => .ofTaint uri issue

/-- Whether an issue comes before another one with the same line and message: a local one before a
taint one, local ones by identifier, taint ones in the order of the server. -/
def Foregoes : ShownIssue → ShownIssue → Prop
  | .reported left _, .reported right _ => left.number < right.number
  | .reported _ _, .taint _ _ => True
  | .taint _ _, .reported _ _ => False
  | .taint left _, .taint right _ => left < right

instance : DecidableRel Foregoes
  | .reported left _, .reported right _ => inferInstanceAs (Decidable (left.number < right.number))
  | .reported _ _, .taint _ _ => isTrue trivial
  | .taint _ _, .reported _ _ => isFalse not_false
  | .taint left _, .taint right _ => inferInstanceAs (Decidable (left < right))

/-- Whether an issue stands before another one: by line, then by the octets of the message. -/
def Precedes (left right : ShownIssue) : Prop :=
  left.line < right.line ∨
    left.line = right.line ∧
      (Utf8.encode left.message < Utf8.encode right.message ∨
        left.message = right.message ∧ left.Foregoes right)

instance : DecidableRel Precedes := fun left right =>
  inferInstanceAs (Decidable (left.line < right.line ∨
    left.line = right.line ∧
      (Utf8.encode left.message < Utf8.encode right.message ∨
        left.message = right.message ∧ left.Foregoes right)))

/-- The unresolved issues of a set. -/
def ofSet (issues : IssueSet) : List ShownIssue :=
  (Diagnostic.unresolved issues).map fun (id, found) => .reported id found.issue

/-- The taint issues of a list, with their places. -/
def ofTaint (taint : List TaintIssue) : List ShownIssue :=
  taint.zipIdx.map fun (issue, place) => .taint place issue

/-- A list is the ordered merge of a set of local issues and a list of taint issues: it has the
unresolved ones and nothing else, and all of them stand in order. -/
structure MergeOf (issues : IssueSet) (taint : List TaintIssue) (list : List ShownIssue) :
    Prop where
  complete : list.Perm (ofSet issues ++ ofTaint taint)
  ordered : list.Pairwise Precedes

/-! ## Ranks -/

/-- The line and the message of an issue, ordered by line first. -/
def rank (shown : ShownIssue) : Nat ×ₗ String :=
  toLex (shown.line, shown.message)

/-- A diagnostic starts on the line of its issue. -/
theorem line_diagnostic (uri : Url) (shown : ShownIssue) :
    (shown.diagnostic uri).span.start.line.toNat = shown.line := by
  have decreased : ∀ line : UInt32, (line - min line 1).toNat = line.toNat - 1 := by
    intro line
    change (line - if line ≤ 1 then line else 1).toNat = line.toNat - 1
    split
    · rename_i first
      have small : line.toNat ≤ 1 := UInt32.le_iff_toNat_le.mp first
      rw [UInt32.sub_self, UInt32.toNat_zero, Nat.sub_eq_zero_of_le small]
    · rename_i later
      have large : 1 ≤ line := UInt32.le_of_lt (UInt32.not_le.mp later)
      rw [UInt32.toNat_sub_of_le _ _ large, UInt32.toNat_one]
  cases shown with
  | reported id issue => exact decreased issue.range.startLine
  | taint place issue => exact decreased issue.range.startLine

/-- A diagnostic shows the message of its issue. -/
theorem message_diagnostic (uri : Url) (shown : ShownIssue) :
    (shown.diagnostic uri).message = shown.message := by
  cases shown <;> rfl

/-- Diagnostics are sorted by the ranks of their issues. -/
theorem mayPrecede_iff (uri : Url) {left right : ShownIssue} :
    Diagnostic.mayPrecede (left.diagnostic uri) (right.diagnostic uri) = true ↔
      left.rank ≤ right.rank := by
  rw [rank, rank, Prod.Lex.toLex_le_toLex, Diagnostic.mayPrecede, Bool.or_eq_true, Bool.and_eq_true,
    decide_eq_true_iff, decide_eq_true_iff, decide_eq_true_iff, UInt32.lt_iff_toNat_lt,
    ← UInt32.toNat_inj, line_diagnostic, line_diagnostic, message_diagnostic, message_diagnostic]

/-- Issues stand in order by their ranks, and where these are equal by their turn. -/
theorem precedes_iff {left right : ShownIssue} :
    left.Precedes right ↔
      left.rank < right.rank ∨ left.rank = right.rank ∧ left.Foregoes right := by
  rw [Precedes, Utf8.encode_lt_iff, rank, rank, Prod.Lex.toLex_lt_toLex, toLex_inj, Prod.mk.injEq]
  tauto

/-- No two issues come before each other. -/
theorem Foregoes.not_symm {left right : ShownIssue} (before : left.Foregoes right) :
    ¬ right.Foregoes left := by
  cases left with
  | reported id issue =>
      cases right with
      | reported other issue => exact UInt64.lt_asymm before
      | taint place issue => exact not_false
  | taint place issue =>
      cases right with
      | reported id issue => exact before.elim
      | taint other issue => exact Nat.lt_asymm before

/-- No two issues stand before each other. -/
theorem Precedes.not_symm {left right : ShownIssue} (before : left.Precedes right) :
    ¬ right.Precedes left := by
  intro after
  rcases precedes_iff.mp before with less | ⟨same, foregoes⟩
  · rcases precedes_iff.mp after with greater | ⟨same, _⟩
    · exact lt_asymm less greater
    · exact less.ne' same
  · rcases precedes_iff.mp after with greater | ⟨_, again⟩
    · exact greater.ne' same
    · exact foregoes.not_symm again

end ShownIssue

/-! ## Stable sorts -/

section StableSort

variable {α : Type} {le : α → α → Bool} {before : α → α → Prop}

/-- Of two things in a list, one stands before the other. -/
private theorem pair_sublist_of_mem {list : List α} {left right : α} (inLeft : left ∈ list)
    (inRight : right ∈ list) (different : left ≠ right) :
    [left, right].Sublist list ∨ [right, left].Sublist list := by
  induction list with
  | nil => cases inLeft
  | cons first rest ih =>
      rcases List.mem_cons.mp inLeft with rfl | laterLeft
      · have laterRight := List.mem_of_ne_of_mem (Ne.symm different) inRight
        exact .inl ((List.singleton_sublist.mpr laterRight).cons_cons _)
      · rcases List.mem_cons.mp inRight with rfl | laterRight
        · exact .inr ((List.singleton_sublist.mpr laterLeft).cons_cons _)
        · exact (ih laterLeft laterRight).imp (.cons _) (.cons _)

/-- In a list without repetitions, no two things stand before each other. -/
private theorem not_pair_sublist_symm {list : List α} (separate : list.Nodup) {left right : α}
    (before : [left, right].Sublist list) : ¬ [right, left].Sublist list := by
  classical
  have placed : list.Pairwise fun one other => list.idxOf one < list.idxOf other := by
    apply List.pairwise_iff_getElem.mpr
    intro earlier later inEarlier inLater order
    rwa [separate.idxOf_getElem, separate.idxOf_getElem]
  rw [List.pairwise_iff_forall_sublist] at placed
  exact fun after => Nat.lt_asymm (placed before) (placed after)

/-- A stable sort of a list that is in a strict order leaves this order between what it takes for
equal. -/
theorem pairwise_mergeSort_of_pairwise
    (trans : ∀ first second third, le first second → le second third → le first third)
    (total : ∀ left right, le left right || le right left)
    (irrefl : ∀ one, ¬ before one one) {list : List α} (ordered : list.Pairwise before) :
    (list.mergeSort le).Pairwise fun left right =>
      le left right ∧ (le right left → before left right) := by
  have separate : list.Nodup := by
    refine List.Pairwise.imp ?_ ordered
    intro left right earlier same
    rw [same] at earlier
    exact irrefl right earlier
  have permuted := List.mergeSort_perm list le
  have sorted := List.pairwise_mergeSort trans total list
  rw [List.pairwise_iff_forall_sublist] at ordered sorted ⊢
  intro left right stand
  refine ⟨sorted stand, fun tie => ?_⟩
  have different : left ≠ right := by
    have apart := (permuted.nodup_iff.mpr separate).sublist stand
    simpa using apart
  have inLeft : left ∈ list := permuted.mem_iff.mp (stand.subset (by simp))
  have inRight : right ∈ list := permuted.mem_iff.mp (stand.subset (by simp))
  rcases pair_sublist_of_mem inLeft inRight different with kept | turned
  · exact ordered kept
  · -- What the sort takes for equal it does not turn around.
    have again := List.pair_sublist_mergeSort trans total tie turned
    exact (not_pair_sublist_symm (permuted.nodup_iff.mpr separate) stand again).elim

end StableSort

/-! ## The merge -/

namespace ShownIssue

variable {issues : IssueSet} {taint : List TaintIssue} {list : List ShownIssue}

/-- There is one ordered merge only. -/
theorem MergeOf.unique {other : List ShownIssue} (merge : MergeOf issues taint list)
    (another : MergeOf issues taint other) : other = list := by
  refine List.Perm.eq_of_pairwise ?_ another.ordered merge.ordered
    (another.complete.trans merge.complete.symm)
  intro left right _ _ before after
  exact (before.not_symm after).elim

/-- In whatever order a set is kept, it shows the same issues. -/
theorem ofSet_perm {left right : IssueSet} (permuted : left.entries.Perm right.entries) :
    (ofSet left).Perm (ofSet right) :=
  (permuted.filter _).map _

/-- A merge does not depend on the order in which a set is kept. -/
theorem MergeOf.of_perm {other : IssueSet} (merge : MergeOf issues taint list)
    (permuted : other.entries.Perm issues.entries) : MergeOf other taint list :=
  ⟨merge.complete.trans ((ofSet_perm permuted.symm).append_right _), merge.ordered⟩

/-- The unresolved issues of a set in order, followed by taint issues. -/
def inTurn (issues : IssueSet) (taint : List TaintIssue) : List ShownIssue :=
  ofSet ⟨issues.inOrder⟩ ++ ofTaint taint

/-- A set in order of identifiers and the list of the server after it are in turn. -/
theorem pairwise_inTurn (distinct : issues.Distinct) (taint : List TaintIssue) :
    (inTurn issues taint).Pairwise Foregoes := by
  apply List.pairwise_append.mpr
  refine ⟨?_, ?_, ?_⟩
  · rw [ofSet, List.pairwise_map]
    exact (List.pairwise_map.mp (IssueSet.ascending_inOrder distinct)).filter _
  · have places : (taint.zipIdx.map Prod.snd).Pairwise (· < ·) := by
      rw [List.zipIdx_map_snd]
      exact List.pairwise_lt_range'
    have apart := List.pairwise_map.mp places
    rw [ofTaint, List.pairwise_map]
    exact apart
  · intro own inOwn foreign inForeign
    obtain ⟨_, _, rfl⟩ := List.mem_map.mp inOwn
    obtain ⟨_, _, rfl⟩ := List.mem_map.mp inForeign
    exact trivial

end ShownIssue

namespace Diagnostic

open ShownIssue

/-- The diagnostics of a file are those of its issues, sorted. -/
theorem ofIssues_eq_map (uri : Url) (issues : IssueSet) (taint : List TaintIssue) :
    ofIssues uri issues taint =
      ((inTurn issues taint).mergeSort fun left right =>
        mayPrecede (left.diagnostic uri) (right.diagnostic uri)).map
          (ShownIssue.diagnostic uri) := by
  have foreign : (ShownIssue.ofTaint taint).map (ShownIssue.diagnostic uri) =
      taint.map (ofTaint uri) := by
    calc (ShownIssue.ofTaint taint).map (ShownIssue.diagnostic uri)
      _ = (taint.zipIdx.map Prod.fst).map (ofTaint uri) := by
        rw [ShownIssue.ofTaint, List.map_map, List.map_map]
        rfl
      _ = taint.map (ofTaint uri) := by rw [List.zipIdx_map_fst]
  rw [List.map_mergeSort (s := mayPrecede) fun _ _ _ _ => rfl, inTurn, List.map_append, ofSet,
    List.map_map, foreign]
  rfl

/-- Sorting the issues in turn by their diagnostics merges them: the sort is stable, so those of one
rank keep their turn. -/
theorem mergeOf_sorted (uri : Url) {issues : IssueSet} (distinct : issues.Distinct)
    (taint : List TaintIssue) :
    MergeOf issues taint ((inTurn issues taint).mergeSort fun left right =>
      mayPrecede (left.diagnostic uri) (right.diagnostic uri)) := by
  have complete : (inTurn issues taint).Perm (ofSet issues ++ ShownIssue.ofTaint taint) :=
    (ofSet_perm issues.inOrder_perm).append_right _
  refine ⟨(List.mergeSort_perm _ _).trans complete, ?_⟩
  have trans : ∀ first second third : ShownIssue,
      mayPrecede (first.diagnostic uri) (second.diagnostic uri) = true →
      mayPrecede (second.diagnostic uri) (third.diagnostic uri) = true →
      mayPrecede (first.diagnostic uri) (third.diagnostic uri) = true := by
    simp only [mayPrecede_iff]
    exact fun first second third => le_trans
  have total : ∀ left right : ShownIssue,
      (mayPrecede (left.diagnostic uri) (right.diagnostic uri) ||
        mayPrecede (right.diagnostic uri) (left.diagnostic uri)) = true := by
    simp only [Bool.or_eq_true, mayPrecede_iff]
    exact fun left right => le_total left.rank right.rank
  have irrefl : ∀ shown : ShownIssue, ¬ shown.Foregoes shown := fun _ before =>
    before.not_symm before
  refine (pairwise_mergeSort_of_pairwise trans total irrefl (pairwise_inTurn distinct taint)).imp ?_
  intro left right ⟨before, tie⟩
  rw [mayPrecede_iff] at before tie
  rw [precedes_iff]
  rcases before.lt_or_eq with less | same
  · exact .inl less
  · exact .inr ⟨same, tie same.ge⟩

/-- **The ordered merge.** Whatever local and taint issues a file has, they have one ordered merge,
and the diagnostics of the file are those of this list: of the unresolved local issues and of the
taint issues each is shown once and nothing else is, by line and displayed message, and among equals
local ones by number before taint ones in the order of the server. The order in which the set is
kept does not matter. -/
theorem ofIssues_is_ordered_merge (uri : Url) {issues : IssueSet} (distinct : issues.Distinct)
    (taint : List TaintIssue) :
    ∃ list, MergeOf issues taint list ∧ (∀ other, MergeOf issues taint other → other = list) ∧
      ofIssues uri issues taint = list.map (ShownIssue.diagnostic uri) ∧
      (∀ shown ∈ list, (shown.diagnostic uri).span.start.line.toNat = shown.line ∧
        (shown.diagnostic uri).message = shown.message) ∧
      (ofIssues uri issues taint).Perm
        ((unresolved issues).map (fun (id, found) => ofLocal uri id found.issue) ++
          taint.map (ofTaint uri)) ∧
      ∀ other : IssueSet, other.entries.Perm issues.entries →
        ofIssues uri other taint = ofIssues uri issues taint := by
  have merge := mergeOf_sorted uri distinct taint
  have listed := ofIssues_eq_map uri issues taint
  refine ⟨_, merge, fun other => merge.unique, listed,
    fun shown _ => ⟨line_diagnostic uri shown, message_diagnostic uri shown⟩,
    ofIssues_perm uri issues taint, fun other permuted => ?_⟩
  have again : other.Distinct := distinct.of_perm permuted
  have same := merge.unique ((mergeOf_sorted uri again taint).of_perm permuted.symm)
  rw [ofIssues_eq_map, same, listed]

/-- The file of the issues that are tied. -/
def tiedFile : Url where
  scheme := "file"
  authority := none
  path := .rooted ["a.rs"]
  query := none
  fragment := none

/-- The beginning of a line. -/
def atLine (line : UInt32) : TextRange where
  startLine := line
  startColumn := 0
  endLine := line
  endColumn := 1

/-- Three local issues on the first line, one of them resolved. -/
def tied : IssueSet where
  entries :=
    [(⟨10⟩, ⟨⟨"r:1", "b", .major, atLine 1, []⟩, 1, .unknown⟩),
      (⟨3⟩, ⟨⟨"r:1", "b", .major, atLine 1, []⟩, 1, ⟨some "k", true⟩⟩),
      (⟨9⟩, ⟨⟨"r:2", "b", .major, atLine 0, []⟩, 1, .unknown⟩)]

/-- Two taint issues on the same line, the first with the message of the local ones. -/
def tiedTaint : List TaintIssue :=
  [⟨"k1", "r:3", "b", .major, atLine 1, [], false⟩, ⟨"k2", "r:3", "a", .major, atLine 1, [], false⟩]

/-- Equal lines and messages: local issues by number, then the taint issue. -/
theorem ties_stand_by_number :
    tied.Distinct ∧
      ofIssues tiedFile tied tiedTaint =
        [.ofTaint tiedFile ⟨"k2", "r:3", "a", .major, atLine 1, [], false⟩,
          .ofLocal tiedFile ⟨9⟩ ⟨"r:2", "b", .major, atLine 0, []⟩,
          .ofLocal tiedFile ⟨10⟩ ⟨"r:1", "b", .major, atLine 1, []⟩,
          .ofTaint tiedFile ⟨"k1", "r:3", "b", .major, atLine 1, [], false⟩] := by
  have distinct : tied.Distinct := (by decide : tied.keys.Nodup)
  obtain ⟨list, _, unique, listed, _⟩ := ofIssues_is_ordered_merge tiedFile distinct tiedTaint
  have merge : MergeOf tied tiedTaint
      [.taint 1 ⟨"k2", "r:3", "a", .major, atLine 1, [], false⟩,
        .reported ⟨9⟩ ⟨"r:2", "b", .major, atLine 0, []⟩,
        .reported ⟨10⟩ ⟨"r:1", "b", .major, atLine 1, []⟩,
        .taint 0 ⟨"k1", "r:3", "b", .major, atLine 1, [], false⟩] :=
    ⟨by decide, by decide⟩
  refine ⟨distinct, ?_⟩
  rw [listed, ← unique _ merge]
  rfl

end Diagnostic

end IssueRelay
