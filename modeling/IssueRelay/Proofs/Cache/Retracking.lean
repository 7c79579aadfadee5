import IssueRelay.Proofs.Cache.OverlappingPasses
import IssueRelay.Proofs.Tracking.Rounds

/-!
# Issues that are tracked again with every report

A file of which a server knows issues is tracked as a whole with every report on it. The issues
that a pass has reported so far come back by their places, and their statuses are changed one by
one where they differ; in the end each has the status that it gets when the whole list is tracked
at once (`IssueRelay.Cache.inOrder_retrack`). What it had before does not matter, so after any
reports of a pass the statuses come from the list of reports and from what the server knows now
(`IssueRelay.Cache.tracked_all_at_once`).
-/

namespace IssueRelay

/-! ## One tracking of a whole list -/

namespace Tracking

variable {known : List ServerIssue}

/-- What was reported, each issue with the status that it gets when all are tracked at once. -/
def atOnce (known : List ServerIssue) (listing : List (IssueId × Issue × Int32)) :
    List (IssueId × LocalIssue) :=
  (listing.zip (statuses known (listing.map fun (_, issue, _) => issue))).map
    fun ((id, issue, documentVersion), status) => (id, { issue, documentVersion, status })

/-- An issue stands among those tracked at once exactly if, at one place, it was reported and its
status was found. -/
theorem mem_atOnce {listing : List (IssueId × Issue × Int32)} {id : IssueId} {found : LocalIssue} :
    (id, found) ∈ atOnce known listing ↔
      ∃ place : Nat, listing[place]? = some (id, found.asReported) ∧
        (statuses known (listing.map fun (_, issue, _) => issue))[place]? = some found.status := by
  rw [atOnce, List.mem_map]
  constructor
  · rintro ⟨⟨⟨_, issue, documentVersion⟩, status⟩, member, same⟩
    obtain ⟨rfl, rfl⟩ := Prod.mk.inj same
    obtain ⟨place, both⟩ := List.mem_iff_getElem?.mp member
    exact ⟨place, List.getElem?_zip_eq_some.mp both⟩
  · rintro ⟨place, both⟩
    exact ⟨((id, found.asReported), found.status),
      List.mem_iff_getElem?.mpr ⟨place, List.getElem?_zip_eq_some.mpr both⟩, rfl⟩

section Columns

variable (known) (listing : List (IssueId × Issue × Int32))

/-- Each issue that was reported gets one status. -/
private theorem length_answers :
    (statuses known (listing.map fun (_, issue, _) => issue)).length = listing.length := by
  rw [statuses, List.length_map, length_track, List.length_map]

/-- Nothing that was reported is changed by tracking. -/
theorem map_asReported_atOnce :
    ((atOnce known listing).map fun (id, found) => (id, found.asReported)) = listing := by
  calc (atOnce known listing).map (fun (id, found) => (id, found.asReported))
    _ = (listing.zip (statuses known (listing.map fun (_, issue, _) => issue))).map Prod.fst := by
      rw [atOnce, List.map_map]
      rfl
    _ = listing := by rw [List.map_fst_zip (length_answers known listing).ge]

/-- Tracking leaves the identifiers in their order. -/
theorem map_fst_atOnce : (atOnce known listing).map Prod.fst = listing.map Prod.fst := by
  conv_rhs => rw [← map_asReported_atOnce known listing, List.map_map]
  rfl

/-- Tracking leaves the issues in their order. -/
theorem map_issue_atOnce :
    ((atOnce known listing).map fun (_, found) => found.issue) =
      listing.map fun (_, issue, _) => issue := by
  conv_rhs => rw [← map_asReported_atOnce known listing, List.map_map]
  rfl

/-- The statuses are those that the list of issues gets as a whole. -/
theorem map_status_atOnce :
    ((atOnce known listing).map fun (_, found) => found.status) =
      statuses known (listing.map fun (_, issue, _) => issue) := by
  calc (atOnce known listing).map (fun (_, found) => found.status)
    _ = (listing.zip (statuses known (listing.map fun (_, issue, _) => issue))).map Prod.snd := by
      rw [atOnce, List.map_map]
      rfl
    _ = statuses known (listing.map fun (_, issue, _) => issue) := by
      rw [List.map_snd_zip (length_answers known listing).le]

end Columns

/-- The answer at a place is about the issue at that place. -/
theorem index_of_getElem?_track {issues : List Issue} {place : Nat} {result : TrackedIssue}
    (said : (track known issues)[place]? = some result) : result.index = place := by
  have inside : place < issues.length := by
    rw [← length_track known issues]
    exact (List.getElem?_eq_some_iff.mp said).1
  obtain ⟨_, _, answered⟩ := getElem?_track known issues inside
  rw [Option.some.inj (said.symm.trans answered)]

end Tracking

namespace Cache

/-! ## Taking over what is said -/

section Retrack

variable {known : List ServerIssue} {issues : IssueSet} (distinct : issues.Distinct)

include distinct

/-- Tracking again stores no identifier twice. -/
theorem distinct_retrack (known : List ServerIssue) : (retrack known issues).Distinct :=
  IssueSet.distinct_takeOver _ _ distinct

/-- The issue in a place gets the status that is said of it, whatever it had before. -/
theorem get?_retrack {place : Nat} {id : IssueId} {found : LocalIssue} {result : TrackedIssue}
    (listed : issues.inOrder[place]? = some (id, found))
    (said : (Tracking.track known (issues.inOrder.map fun (_, found) => found.issue))[place]? =
      some result) :
    (retrack known issues).get? id = some { found with status := result.status } := by
  -- Each index is answered once, so no later answer replaces the status.
  have separate :
      ((Tracking.track known (issues.inOrder.map fun (_, found) => found.issue)).map
        TrackedIssue.index).Nodup := by
    rw [Tracking.map_index_track]
    exact List.nodup_range
  have named : (issues.inOrder.map Prod.fst)[result.index]? = some id := by
    rw [Tracking.index_of_getElem?_track said, List.getElem?_map, listed]
    rfl
  have present : issues.get? id = some found :=
    (IssueSet.mem_inOrder distinct).mp (List.mem_of_getElem? listed)
  rw [retrack, IssueSet.get?_takeOver issues (IssueSet.ascending_inOrder distinct).nodup separate
    (List.mem_of_getElem? said) named, present, Option.map_some]

/-- A set that is tracked again is, in order, what was reported, tracked at once. -/
theorem inOrder_retrack (known : List ServerIssue) :
    (retrack known issues).inOrder = Tracking.atOnce known issues.listing := by
  have records : (issues.listing.map fun (_, issue, _) => issue) =
      issues.inOrder.map fun (_, found) => found.issue := by
    rw [IssueSet.listing, List.map_map]
    rfl
  have ids : (Tracking.atOnce known issues.listing).map Prod.fst = issues.inOrder.map Prod.fst := by
    rw [Tracking.map_fst_atOnce, IssueSet.map_fst_listing]
  apply IssueSet.inOrder_eq_of_ascending (distinct_retrack distinct known)
  · rw [ids]
    exact IssueSet.ascending_inOrder distinct
  · intro id member
    rw [ids, (issues.inOrder_perm.map Prod.fst).mem_iff]
    exact IssueSet.keys_subset_of_asReported (IssueSet.get?_asReported_takeOver _ _ issues) member
  · intro id found member
    obtain ⟨place, reported, said⟩ := Tracking.mem_atOnce.mp member
    rw [IssueSet.listing, List.getElem?_map] at reported
    obtain ⟨⟨_, before⟩, listed, same⟩ := Option.map_eq_some_iff.mp reported
    rw [records, Tracking.statuses, List.getElem?_map] at said
    obtain ⟨result, answered, status⟩ := Option.map_eq_some_iff.mp said
    obtain ⟨rfl, unchanged⟩ := Prod.mk.inj same
    obtain ⟨issue, version⟩ := Prod.mk.inj unchanged
    rw [get?_retrack distinct listed answered, status, issue, version]

/-- Tracking a set again does not change what was reported. -/
theorem listing_retrack (known : List ServerIssue) :
    (retrack known issues).listing = issues.listing :=
  IssueSet.listing_congr distinct (distinct_retrack distinct known)
    (IssueSet.get?_asReported_takeOver _ _ issues)

end Retrack

/-! ## Reports one by one -/

/-- What the pass under way has reported of a file, whatever the server says of it. -/
def reportedSoFar (cache : Cache) (file : Url) : Dictionary IssueId (Issue × Int32) :=
  ((cache.inProgress.get? file).getD ∅).asReported

/-- A report as an entry of a listing. -/
def Report.entry (report : Report) : IssueId × Issue × Int32 :=
  (report.id, report.issue, report.documentVersion)

/-- The entries of reports stand under the identifiers of the reports. -/
theorem map_fst_entry (reports : List Report) :
    (reports.map Report.entry).map Prod.fst = reports.map Report.id := by
  rw [List.map_map]
  rfl

/-- Where no identifier was given twice, the latest report under one is the only one. -/
theorem latest?_eq_some_iff {reports : List Report} (distinct : (reports.map Report.id).Nodup)
    {id : IssueId} {reported : Issue × Int32} :
    latest? id reports = some reported ↔ (id, reported) ∈ reports.map Report.entry := by
  let entries : Dictionary IssueId (Issue × Int32) := ⟨reports.reverse.map Report.entry⟩
  have separate : entries.Distinct := by
    rw [Dictionary.Distinct, Dictionary.keys, map_fst_entry, List.map_reverse]
    exact List.nodup_reverse.mpr distinct
  have same : latest? id reports = entries.get? id := by
    rw [latest?, Dictionary.get?, List.find?_map, Option.map_map]
    rfl
  have listed : entries.entries = (reports.map Report.entry).reverse := List.map_reverse
  rw [same, separate.get?_eq_some_iff, listed, List.mem_reverse]

/-- A set that has the reports of a list lists them, if their identifiers ascend. -/
theorem listing_of_holds {issues : IssueSet} {reports : List Report} (holds : issues.Holds reports)
    (ascending : Ascending (reports.map Report.id)) :
    issues.listing = reports.map Report.entry := by
  apply IssueSet.listing_eq_of_ascending holds.distinct
  · rw [map_fst_entry]
    exact ascending
  · intro id reported
    rw [holds.found, latest?_eq_some_iff ascending.nodup]

/-- A report on a file of which a server knows issues adds an issue and tracks all of them. -/
theorem inProgress_reportTracked {cache : Cache} (past : Chronicle cache) (document : Document)
    (issue : Issue) (known : List ServerIssue) :
    ∃ added : IssueSet, added.Distinct ∧
      (∀ id, added.asReported.get? id =
        if id = cache.nextId then some (issue, document.version)
        else (cache.reportedSoFar document.uri).get? id) ∧
      (act (.reportTracked document issue known) cache).1.inProgress.get? document.uri =
        some (retrack known added) := by
  obtain ⟨seen, left⟩ := reportTracked_fst cache document issue known
  obtain ⟨filled, holds⟩ := (past.refines document.uri).uncommittedIssues_eq
  have distinct : ((cache.inProgress.get? document.uri).getD ∅).Distinct :=
    filled ▸ holds.distinct
  obtain ⟨separate, lookups⟩ :=
    adds_insert distinct ⟨document.uri, cache.nextId, issue, document.version⟩ .unknown
  refine ⟨_, separate, lookups, ?_⟩
  rw [act, left]
  exact inProgress_trackIssues_self known (inProgress_addIssue_self cache document issue)

/-- **Tracking as a whole.** After a report on a file of which a server knows issues, the issues of
the pass are those reported before and the new one, and in the order of their identifiers they have
the statuses that one tracking of the whole list gives, against what the server knows now. Statuses
of earlier rounds do not matter: while there are fewer reports than identifiers, the set is the list
of the reports of the pass, tracked at once; and two caches in which a pass has reported the same
come to the same set. Nothing else is touched. -/
theorem tracked_all_at_once {cache : Cache} (past : Chronicle cache) (document : Document)
    (issue : Issue) (history : History) :
    let known := history.get document.relativePath
    let report := Action.reportTracked document issue known
    let later := past.next report trivial
    let after := (act report cache).1
    (∃ issues, after.inProgress.get? document.uri = some issues ∧
      (∀ id found, (id, found) ∈ issues.inOrder ↔ issues.get? id = some found) ∧
      Ascending (issues.inOrder.map Prod.fst) ∧
      (issues.inOrder.map fun (_, found) => found.status) =
        (Tracking.track known (issues.inOrder.map fun (_, found) => found.issue)).map
          TrackedIssue.status ∧
      (∀ id, issues.asReported.get? id =
        if id = cache.nextId then some (issue, document.version)
        else (cache.reportedSoFar document.uri).get? id) ∧
      (later.reports.length < UInt64.size →
        issues.inOrder =
          Tracking.atOnce known ((later.uncommitted document.uri).map Report.entry)) ∧
      ∀ (twin : Cache) (_ : Chronicle twin), twin.nextId = cache.nextId →
        (∀ id, (twin.reportedSoFar document.uri).get? id =
          (cache.reportedSoFar document.uri).get? id) →
        ∃ others, (act report twin).1.inProgress.get? document.uri = some others ∧
          others.inOrder = issues.inOrder) ∧
      after = { cache with
        inProgress := after.inProgress
        nextId := cache.nextId.next
        secretSeen := after.secretSeen } ∧
      ∀ other, other ≠ document.uri →
        after.inProgress.get? other = cache.inProgress.get? other := by
  intro known report later after
  obtain ⟨seen, whole⟩ := reportTracked_fst cache document issue known
  have all : after = _ := whole
  obtain ⟨added, distinct, lookups, left⟩ := inProgress_reportTracked past document issue known
  have inOrder := inOrder_retrack distinct known
  have separate := distinct_retrack distinct known
  refine ⟨⟨retrack known added, left, fun id found => IssueSet.mem_inOrder separate,
    IssueSet.ascending_inOrder separate, ?_, ?_, fun few => ?_,
    fun twin twinPast same reported => ?_⟩, ?_, fun other different => ?_⟩
  · rw [inOrder, Tracking.map_status_atOnce, Tracking.map_issue_atOnce]
    rfl
  · intro id
    rw [retrack, IssueSet.get?_asReported_takeOver, lookups]
  · have ascending : Ascending ((later.uncommitted document.uri).map Report.id) :=
      (later.ascending_ids few).sublist ((later.uncommitted_sublist document.uri).map _)
    have holds := (later.holds_of_inProgress left).2
    rw [inOrder, ← listing_of_holds holds ascending, listing_retrack distinct]
  · obtain ⟨others, apart, found, there⟩ :=
      inProgress_reportTracked twinPast document issue known
    refine ⟨_, there, ?_⟩
    have alike : others.listing = added.listing := by
      refine IssueSet.listing_congr distinct apart fun id => ?_
      rw [found, lookups, same, reported]
    rw [inOrder, inOrder_retrack apart, alike]
  · rw [all]
    rfl
  · rw [all]
    exact (inProgress_trackIssues_of_ne _ known different).trans
      (inProgress_addIssue_of_ne cache issue different)

/-- What a server knows of the main file: a resolved issue on the first line. -/
def heard : History :=
  History.empty.update mainDocument.relativePath
    [{ key := "k", ruleKey := "r:1", message := "m", line := some 1, resolved := true }]

/-- A pass that has reported the issue on the second line, where it is taken for the known one. -/
def movedFirst :=
  (Chronicle.beginning.next (.start mainFile) trivial).next
    (.reportTracked mainDocument (finding "m" 2) (heard.get mainDocument.relativePath)) trivial

/-- The server key goes over to an issue that is reported later and matches better, and the issue
that was taken for the resolved one is open again. -/
theorem key_goes_to_better_match :
    ∃ (cache : Cache) (_ : Chronicle cache) (issues : IssueSet) (moved unmoved : LocalIssue),
      (cache.issue? mainFile ⟨1⟩).map LocalIssue.status =
        some { key := some "k", resolved := true } ∧
      (act (.reportTracked mainDocument (finding "m" 1) (heard.get mainDocument.relativePath))
        cache).1.inProgress.get? mainFile = some issues ∧
      issues.get? ⟨1⟩ = some moved ∧ moved.issue = finding "m" 2 ∧ moved.status = .unknown ∧
      issues.get? ⟨2⟩ = some unmoved ∧ unmoved.issue = finding "m" 1 ∧
        unmoved.status = { key := some "k", resolved := true } := by
  obtain ⟨⟨issues, found, listed, _, _, _, atOnce, _⟩, _⟩ :=
    tracked_all_at_once movedFirst mainDocument (finding "m" 1) heard
  have inOrder := atOnce (by decide)
  refine ⟨_, movedFirst, issues, ⟨finding "m" 2, 1, .unknown⟩,
    ⟨finding "m" 1, 1, { key := some "k", resolved := true }⟩, by decide +kernel, found,
    (listed _ _).mp ?_, rfl, rfl, (listed _ _).mp ?_, rfl, rfl⟩
  · rw [inOrder]
    decide +kernel
  · rw [inOrder]
    decide +kernel

end Cache
end IssueRelay
