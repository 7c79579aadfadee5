import IssueRelay.Proofs.Issue.Set

/-!
# The order of identifiers

Identifiers are given one after the other, so their order is the order in which issues were
reported. A set is listed in this order in one way only
(`IssueRelay.IssueSet.inOrder_eq_of_ascending`), in whatever order it is kept.
-/

namespace IssueRelay

namespace IssueId

/-- The order of identifiers is transitive. -/
theorem le_trans (first second third : IssueId) (one : first.le second = true)
    (other : second.le third = true) : first.le third = true :=
  decide_eq_true (UInt64.le_trans (of_decide_eq_true one) (of_decide_eq_true other))

/-- The order of identifiers is total. -/
theorem le_total (left right : IssueId) : (left.le right || right.le left) = true := by
  rw [Bool.or_eq_true, le, le, decide_eq_true_iff, decide_eq_true_iff]
  exact UInt64.le_total left.number right.number

/-- Of two identifiers that are not the same, one has the smaller number. -/
theorem lt_of_le_of_ne {left right : IssueId} (below : left.le right = true)
    (different : left ≠ right) : left.number < right.number :=
  UInt64.lt_of_le_of_ne (of_decide_eq_true below) fun same => different (congrArg mk same)

end IssueId

/-- Whether identifiers stand in a list in their order, each once. -/
abbrev Ascending (ids : List IssueId) : Prop :=
  ids.Pairwise fun left right => left.number < right.number

/-- In an ascending list, identifiers are ordered as their places are. -/
theorem Ascending.le_iff {ids : List IssueId} (ascending : Ascending ids) {left right : Nat}
    (inLeft : left < ids.length) (inRight : right < ids.length) :
    ids[left].le ids[right] = true ↔ left ≤ right := by
  rw [IssueId.le, decide_eq_true_iff]
  constructor
  · intro below
    by_contra later
    have above := List.pairwise_iff_getElem.mp ascending right left inRight inLeft (by omega)
    exact absurd below (UInt64.not_le.mpr above)
  · intro earlier
    rcases Nat.lt_or_eq_of_le earlier with before | rfl
    · have less := List.pairwise_iff_getElem.mp ascending left right inLeft inRight before
      exact UInt64.le_of_lt less
    · exact UInt64.le_refl _

/-- An ascending list repeats nothing. -/
theorem Ascending.nodup {ids : List IssueId} (ascending : Ascending ids) : ids.Nodup := by
  refine ascending.imp fun {left right} below same => ?_
  rw [same] at below
  exact UInt64.lt_irrefl _ below

/-- What is listed under ascending identifiers is listed in one way only. -/
theorem eq_of_ascending {α : Type} {left right : List (IssueId × α)}
    (ascendingLeft : Ascending (left.map Prod.fst))
    (ascendingRight : Ascending (right.map Prod.fst))
    (same : ∀ entry, entry ∈ left ↔ entry ∈ right) : left = right := by
  have permuted : left.Perm right :=
    (List.perm_ext_iff_of_nodup ascendingLeft.nodup.of_map ascendingRight.nodup.of_map).mpr same
  rw [Ascending, List.pairwise_map] at ascendingLeft ascendingRight
  refine permuted.eq_of_pairwise ?_ ascendingLeft ascendingRight
  intro first second _ _ below above
  exact absurd (UInt64.lt_trans below above) (UInt64.lt_irrefl _)

namespace IssueSet

variable {issues : IssueSet} (distinct : issues.Distinct)

include distinct

/-- The issues in order are those of the set. -/
theorem mem_inOrder {id : IssueId} {found : LocalIssue} :
    (id, found) ∈ issues.inOrder ↔ issues.get? id = some found :=
  issues.inOrder_perm.mem_iff.trans distinct.get?_eq_some_iff.symm

/-- The identifiers of a set in order are ascending. -/
theorem ascending_inOrder : Ascending (issues.inOrder.map Prod.fst) := by
  have sorted : (issues.inOrder.map Prod.fst).Pairwise fun left right => left.le right = true :=
    List.pairwise_map.mpr (List.pairwise_mergeSort
      (fun first second third => IssueId.le_trans first.1 second.1 third.1)
      (fun left right => IssueId.le_total left.1 right.1) issues.entries)
  have separate : (issues.inOrder.map Prod.fst).Nodup :=
    distinct.of_perm issues.inOrder_perm
  exact sorted.imp₂ (fun _ _ => IssueId.lt_of_le_of_ne) separate

/-- A list with ascending identifiers that has all of a set and nothing else is the set in order. -/
theorem inOrder_eq_of_ascending {list : List (IssueId × LocalIssue)}
    (ascending : Ascending (list.map Prod.fst)) (complete : issues.keys ⊆ list.map Prod.fst)
    (sound : ∀ id found, (id, found) ∈ list → issues.get? id = some found) :
    issues.inOrder = list := by
  refine eq_of_ascending (ascending_inOrder distinct) ascending ?_
  intro (id, found)
  rw [mem_inOrder distinct]
  refine ⟨fun present => ?_, sound id found⟩
  have listed := complete (Dictionary.mem_keys_iff.mpr (Option.isSome_of_eq_some present))
  obtain ⟨⟨_, other⟩, member, rfl⟩ := List.mem_map.mp listed
  obtain rfl := Option.some.inj (present.symm.trans (sound _ other member))
  exact member

omit distinct in
/-- A set as it was reported: its identifiers in order, with records and versions of the text. -/
def listing (issues : IssueSet) : List (IssueId × Issue × Int32) :=
  issues.inOrder.map fun (id, found) => (id, found.asReported)

omit distinct in
/-- A listing has the identifiers of the set in order. -/
theorem map_fst_listing (issues : IssueSet) :
    issues.listing.map Prod.fst = issues.inOrder.map Prod.fst := by
  rw [listing, List.map_map]
  rfl

/-- A listing holds what was reported and nothing else. -/
theorem mem_listing {id : IssueId} {reported : Issue × Int32} :
    (id, reported) ∈ issues.listing ↔ issues.asReported.get? id = some reported := by
  rw [get?_asReported, Option.map_eq_some_iff, listing, List.mem_map]
  constructor
  · rintro ⟨⟨_, found⟩, member, same⟩
    obtain ⟨rfl, rfl⟩ := Prod.mk.inj same
    exact ⟨found, (mem_inOrder distinct).mp member, rfl⟩
  · rintro ⟨found, present, rfl⟩
    exact ⟨(id, found), (mem_inOrder distinct).mpr present, rfl⟩

/-- A list with ascending identifiers that has what was reported is the listing of the set. -/
theorem listing_eq_of_ascending {list : List (IssueId × Issue × Int32)}
    (ascending : Ascending (list.map Prod.fst))
    (same : ∀ id reported, issues.asReported.get? id = some reported ↔ (id, reported) ∈ list) :
    issues.listing = list :=
  eq_of_ascending (map_fst_listing issues ▸ ascending_inOrder distinct) ascending
    fun (id, reported) => (mem_listing distinct).trans (same id reported)

/-- Sets in which the same has been reported have the same listing. -/
theorem listing_congr {other : IssueSet} (apart : other.Distinct)
    (same : ∀ id, other.asReported.get? id = issues.asReported.get? id) :
    other.listing = issues.listing := by
  apply listing_eq_of_ascending apart
  · rw [map_fst_listing]
    exact ascending_inOrder distinct
  · intro id reported
    rw [mem_listing distinct, same]

end IssueSet
end IssueRelay
