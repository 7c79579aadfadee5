import IssueRelay.Proofs.Cache.Provenance
import IssueRelay.Proofs.Cache.Refresh
import IssueRelay.Proofs.Cache.Retracking

/-!
# What a cache is like at all times

A cache keeps no empty set and no empty list. Its identifiers have been given, each to a report on
one file, and the issues that were committed last have smaller ones than those of the pass under
way; an issue that is marked resolved has a server key; the taint issues are unresolved; and no two
files have the same refresh registered (`IssueRelay.Cache.Consistent`). All this is so as long as
there are fewer reports than identifiers, whatever happens (`IssueRelay.Cache.always_consistent`).

What is committed and what is in progress is told by the chronicle: both are among the reports, the
former before the latter (`IssueRelay.Cache.Chronicle.kept_sublist`).
-/

namespace IssueRelay

/-! ## Statuses -/

/-- Whether a status that says resolved names the server issue that is. -/
def ServerStatus.Keyed (status : ServerStatus) : Prop :=
  status.resolved = true → status.key.isSome = true

/-- An issue unknown to the server needs no key, since it is not resolved. -/
theorem ServerStatus.keyed_unknown : ServerStatus.unknown.Keyed :=
  fun resolved => nomatch resolved

/-- Whatever tracking says of an issue, it calls it resolved only under a key. -/
theorem Tracking.keyed_of_mem {known : List ServerIssue} {issues : List Issue}
    {status : ServerStatus} (member : status ∈ statuses known issues) : status.Keyed := by
  rw [statuses, track, List.map_map] at member
  obtain ⟨⟨⟨issue, place⟩, index⟩, _, rfl⟩ := List.mem_map.mp member
  change (statusAt known place).Keyed
  unfold statusAt
  split
  · exact fun _ => rfl
  · exact ServerStatus.keyed_unknown

/-! ## Taint issues -/

/-- Whether a store has no empty list and no resolved issue. -/
def TaintStore.Open (store : TaintStore) : Prop :=
  ∀ file issues, store.issues.get? file = some issues →
    issues ≠ [] ∧ ∀ issue ∈ issues, issue.resolved = false

namespace TaintStore

variable {store : TaintStore}

/-- Forgetting a file leaves no resolved vulnerability in the others. -/
theorem Open.remove (isOpen : store.Open) (file : Url) : (store.remove file).Open := by
  intro other issues found
  have different : other ≠ file := by
    intro same
    rw [same, TaintStore.remove, Dictionary.get?_erase_self] at found
    cases found
  rw [TaintStore.remove, Dictionary.get?_erase_of_ne _ different] at found
  exact isOpen other issues found

/-- The answer of a server enters the store without its resolved vulnerabilities. -/
theorem Open.reload (isOpen : store.Open) (file : Url) (answer : List TaintIssue) :
    (store.reload file answer).Open := by
  unfold TaintStore.reload
  split
  · exact isOpen.remove file
  · rename_i filled
    intro other issues found
    by_cases same : other = file
    · rw [same, Dictionary.get?_insert_self] at found
      obtain rfl := Option.some.inj found
      refine ⟨filled, fun issue member => ?_⟩
      simpa using (List.mem_filter.mp member).2
    · rw [Dictionary.get?_insert_of_ne _ _ same] at found
      exact isOpen other issues found

end TaintStore

namespace Cache

/-- However a refresh ends, no resolved vulnerability is in the store afterwards. -/
theorem open_taintAfter {cache : Cache} (isOpen : cache.taint.Open) (refresh : Refresh)
    (answer : Option (List TaintIssue)) : (cache.taintAfter refresh answer).Open := by
  cases answer with
  | none => exact isOpen
  | some issues =>
      rw [taintAfter]
      split
      · exact isOpen.reload _ _
      · exact isOpen

/-! ## Stored issues -/

/-- Whether an issue of a file is stored under an identifier, committed or in progress. -/
def Stores (cache : Cache) (file : Url) (id : IssueId) (found : LocalIssue) : Prop :=
  ∃ issues, (cache.committed.get? file = some issues ∨ cache.inProgress.get? file = some issues) ∧
    issues.get? id = some found

/-- What is always so of a cache. After the last identifier the numbers begin with zero, so only
then is the next number zero. -/
structure Consistent (cache : Cache) : Prop where
  committed_distinct : ∀ file issues, cache.committed.get? file = some issues → issues.Distinct
  inProgress_distinct : ∀ file issues, cache.inProgress.get? file = some issues → issues.Distinct
  committed_ne : ∀ file issues, cache.committed.get? file = some issues → issues.entries ≠ []
  inProgress_ne : ∀ file issues, cache.inProgress.get? file = some issues → issues.entries ≠ []
  taint_ne : ∀ file issues, cache.taint.issues.get? file = some issues → issues ≠ []
  one_le : ∀ file id found, cache.Stores file id found → 1 ≤ id.number
  lt_nextId : ∀ file id found, cache.Stores file id found →
    cache.nextId.number ≠ 0 → id.number < cache.nextId.number
  file_eq : ∀ file other id found another, cache.Stores file id found →
    cache.Stores other id another → file = other
  committed_lt : ∀ file old new, cache.committed.get? file = some old →
    cache.inProgress.get? file = some new →
      ∀ earlier ∈ old.keys, ∀ later ∈ new.keys, earlier.number < later.number
  keyed : ∀ file id found, cache.Stores file id found → found.status.Keyed
  unresolved : ∀ file issues, cache.taint.issues.get? file = some issues →
    ∀ issue ∈ issues, issue.resolved = false
  registered_lt : ∀ file generation, cache.registered.get? file = some generation →
    generation < cache.nextGeneration
  registered_eq : ∀ file other generation, cache.registered.get? file = some generation →
    cache.registered.get? other = some generation → file = other

end Cache

namespace IssueSet

variable {issues : IssueSet} {reports : List Cache.Report}

/-- A set that has reports is not empty. -/
theorem Holds.entries_ne (holds : issues.Holds reports) (some : reports ≠ []) :
    issues.entries ≠ [] := by
  intro empty
  have none : (reports.map Cache.Report.id).dedup.length = 0 := by
    rw [← holds.size_eq, size, empty, List.length_nil]
  rw [List.length_eq_zero_iff, List.dedup_eq_nil, List.map_eq_nil_iff] at none
  exact some none

/-- Every issue of a set that has reports has been reported. -/
theorem Holds.exists_report (holds : issues.Holds reports) {id : IssueId}
    (member : id ∈ issues.keys) : ∃ report ∈ reports, report.id = id := by
  have present : (issues.asReported.get? id).isSome := by
    rw [get?_asReported, Option.isSome_map]
    exact Dictionary.mem_keys_iff.mp member
  rw [holds.found, Cache.isSome_latest?] at present
  exact List.mem_map.mp present

end IssueSet

namespace Cache

namespace Chronicle

variable {cache : Cache}

/-- A committed set has the committed reports, of which there are some. -/
theorem holds_of_committed (past : Chronicle cache) {file : Url} {issues : IssueSet}
    (stored : cache.committed.get? file = some issues) :
    past.committedReports file ≠ [] ∧ issues.Holds (past.committedReports file) := by
  induction past with
  | beginning => cases stored
  | @next cache past action possible ih =>
      cases bufferChange cache file action with
      | commit commits clears inProgress committed =>
          rw [committed] at stored
          rw [committedReports, clears, commits]
          exact past.holds_of_inProgress stored
      | clear clears inProgress committed =>
          rw [committed] at stored
          cases stored
      | drop drops commits clears inProgress committed =>
          rw [committed] at stored
          rw [committedReports, clears, commits]
          exact ih stored
      | report report reported same continues committed =>
          obtain ⟨commits, clears, _⟩ := Action.endsPass_eq_false_iff.mp continues
          rw [committed] at stored
          rw [committedReports, clears, commits]
          exact ih stored
      | none continues elsewhere inProgress committed =>
          obtain ⟨commits, clears, _⟩ := Action.endsPass_eq_false_iff.mp continues
          rw [committed] at stored
          rw [committedReports, clears, commits]
          exact ih stored

/-- What is committed of a file and what is not yet are among all reports, in this order. -/
theorem kept_sublist (past : Chronicle cache) (file : Url) :
    (past.committedReports file ++ past.uncommitted file).Sublist past.reports := by
  induction past with
  | beginning => exact .refl _
  | @next cache past action possible ih =>
      have grows : past.reports.Sublist (past.next action possible).reports :=
        List.sublist_append_left _ _
      cases continues : action.endsPass cache file with
      | true =>
          have dropped : (past.next action possible).uncommitted file = [] := by
            simp [uncommitted, continues]
          rw [dropped, List.append_nil]
          exact (past.next action possible).committedReports_sublist file
      | false =>
          obtain ⟨commits, clears, _⟩ := Action.endsPass_eq_false_iff.mp continues
          have kept : (past.next action possible).committedReports file =
              past.committedReports file := by
            simp [committedReports, clears, commits]
          rw [kept, uncommitted, reports, continues, if_neg Bool.false_ne_true, ← List.append_assoc]
          exact ih.append List.filter_sublist

/-- Every stored issue has been reported, and is kept from there. -/
theorem report_of_stores (past : Chronicle cache) {file : Url} {id : IssueId} {found : LocalIssue}
    (stores : cache.Stores file id found) :
    ∃ report ∈ past.reports, report.file = file ∧ report.id = id := by
  obtain ⟨issues, stored, present⟩ := stores
  have member : id ∈ issues.keys := Dictionary.mem_keys_iff.mpr (by rw [present]; rfl)
  rcases stored with committed | inProgress
  · obtain ⟨report, kept, same⟩ := (past.holds_of_committed committed).2.exists_report member
    exact ⟨report, (past.committedReports_sublist file).subset kept,
      past.file_of_committedReports report kept, same⟩
  · obtain ⟨report, kept, same⟩ := (past.holds_of_inProgress inProgress).2.exists_report member
    exact ⟨report, (past.uncommitted_sublist file).subset kept,
      past.file_of_uncommitted report kept, same⟩

/-- While there are fewer reports than identifiers, their numbers are from one on and below the next
number, if there is a next one. -/
theorem number_of_report (past : Chronicle cache) (few : past.reports.length < UInt64.size)
    {report : Report} (made : report ∈ past.reports) :
    1 ≤ report.id.number ∧
      (cache.nextId.number ≠ 0 → report.id.number < cache.nextId.number) := by
  have numbered : report.id ∈ past.reports.map Report.id := List.mem_map_of_mem made
  rw [past.ids_reports] at numbered
  obtain ⟨place, inside, same⟩ := List.mem_map.mp numbered
  rw [List.mem_range] at inside
  rw [UInt64.size] at few
  rw [← same, past.nextId_eq, UInt64.le_iff_toNat_le, UInt64.lt_iff_toNat_lt, Ne,
    ← UInt64.toNat_inj, UInt64.toNat_ofNat', UInt64.toNat_ofNat', UInt64.toNat_one,
    UInt64.toNat_zero]
  omega

/-- The numbers begin with zero again after the last identifier and not before. -/
theorem nextId_eq_zero_iff (past : Chronicle cache) (few : past.reports.length < UInt64.size) :
    cache.nextId.number = 0 ↔ past.reports.length + 1 = UInt64.size := by
  rw [UInt64.size] at few ⊢
  rw [past.nextId_eq, ← UInt64.toNat_inj, UInt64.toNat_ofNat', UInt64.toNat_zero]
  omega

/-! ## Statuses and refreshes over a whole chronicle -/

/-- A set in progress after a report has the statuses that it had, or those of server issues. -/
theorem keyed_of_reported (past : Chronicle cache) {action : Action} {report : Report}
    (reported : action.reported? cache = some report)
    (keyed : ∀ id found, ((cache.inProgress.get? report.file).getD ∅).get? id = some found →
      found.status.Keyed) {issues : IssueSet}
    (left : (act action cache).1.inProgress.get? report.file = some issues) {id : IssueId}
    {found : LocalIssue} (present : issues.get? id = some found) : found.status.Keyed := by
  cases action with
  | report document issue =>
      obtain rfl : _ = report := Option.some.inj reported
      obtain ⟨seen, after⟩ := report_fst cache document issue
      rw [act, after] at left
      have added := inProgress_addIssue_self cache document issue
      obtain rfl := Option.some.inj (added.symm.trans left)
      by_cases same : id = cache.nextId
      · rw [same, Dictionary.get?_insert_self] at present
        obtain rfl := Option.some.inj present
        exact ServerStatus.keyed_unknown
      · rw [Dictionary.get?_insert_of_ne _ _ same] at present
        exact keyed id found present
  | reportTracked document issue known =>
      obtain rfl : _ = report := Option.some.inj reported
      obtain ⟨added, distinct, _, after⟩ := inProgress_reportTracked past document issue known
      obtain rfl := Option.some.inj (after.symm.trans left)
      have listed := (IssueSet.mem_inOrder (distinct_retrack distinct known)).mpr present
      rw [inOrder_retrack distinct known] at listed
      obtain ⟨place, _, said⟩ := Tracking.mem_atOnce.mp listed
      exact Tracking.keyed_of_mem (List.mem_of_getElem? said)
  | _ => exact (Option.some_ne_none report reported.symm).elim

/-- In every chronicle, an issue that the cache calls resolved has a key. -/
theorem keyed (past : Chronicle cache) {file : Url} {id : IssueId} {found : LocalIssue}
    (stores : cache.Stores file id found) : found.status.Keyed := by
  induction past generalizing id found with
  | beginning =>
      obtain ⟨issues, stored, _⟩ := stores
      rcases stored with absent | absent <;> cases absent
  | @next cache past action possible ih =>
      obtain ⟨issues, stored, present⟩ := stores
      cases bufferChange cache file action with
      | commit commits clears inProgress committed =>
          rw [inProgress, committed] at stored
          exact ih ⟨issues, stored.elim .inr nofun, present⟩
      | clear clears inProgress committed =>
          rw [inProgress, committed] at stored
          exact (stored.elim nofun nofun)
      | drop drops commits clears inProgress committed =>
          rw [inProgress, committed] at stored
          exact ih ⟨issues, stored.elim .inl nofun, present⟩
      | report report reported same continues committed =>
          rw [committed] at stored
          rcases stored with before | left
          · exact ih ⟨issues, .inl before, present⟩
          · subst same
            refine past.keyed_of_reported reported ?_ left present
            intro other another held
            cases started : cache.inProgress.get? report.file with
            | none =>
                rw [started] at held
                cases held
            | some old =>
                rw [started] at held
                exact ih ⟨old, .inr started, held⟩
      | none continues elsewhere inProgress committed =>
          rw [inProgress, committed] at stored
          exact ih ⟨issues, stored, present⟩

/-- In every chronicle, the store holds unresolved vulnerabilities only. -/
theorem open_taint (past : Chronicle cache) : cache.taint.Open := by
  induction past with
  | beginning => exact fun file issues found => nomatch found
  | @next cache past action possible ih =>
      cases refreshChange cache action with
      | start refresh begins fresh idle silent clears left =>
          rw [left]
          exact ih
      | finish refresh answer same begins clears registered running taint nextGeneration =>
          rw [taint]
          exact open_taintAfter ih refresh answer
      | clear file clears begins silent registered running taint nextGeneration =>
          rw [taint]
          exact ih.remove file
      | none begins silent clears registered running taint nextGeneration =>
          rw [taint]
          exact ih

/-- The generation registered for a file has been given out before. -/
theorem registered_lt (past : Chronicle cache) {file : Url} {generation : Nat}
    (found : cache.registered.get? file = some generation) : generation < cache.nextGeneration :=
  past.registry.begun_lt file _ (past.registry.begun_of_registered file generation found)

/-- A generation is registered for one file only. -/
theorem registered_eq (past : Chronicle cache) {file other : Url} {generation : Nat}
    (here : cache.registered.get? file = some generation)
    (there : cache.registered.get? other = some generation) : file = other := by
  induction past with
  | beginning => cases here
  | @next cache past action possible ih =>
      cases refreshChange cache action with
      | start refresh begins fresh idle silent clears left =>
          -- A refresh that begins takes a generation that no file has been registered with.
          have older : ∀ {file}, cache.registered.get? file = some refresh.generation → False := by
            intro file found
            have less := past.registered_lt found
            omega
          rw [left] at here there
          by_cases first : file = refresh.file
          · by_cases second : other = refresh.file
            · rw [first, second]
            · rw [Dictionary.get?_insert_of_ne _ _ second] at there
              rw [first, Dictionary.get?_insert_self] at here
              obtain rfl := Option.some.inj here
              exact (older there).elim
          · rw [Dictionary.get?_insert_of_ne _ _ first] at here
            by_cases second : other = refresh.file
            · rw [second, Dictionary.get?_insert_self] at there
              obtain rfl := Option.some.inj there
              exact (older here).elim
            · rw [Dictionary.get?_insert_of_ne _ _ second] at there
              exact ih here there
      | finish refresh answer same begins clears registered running taint nextGeneration =>
          rw [registered] at here there
          exact ih here there
      | clear cleared clears begins silent registered running taint nextGeneration =>
          rw [registered] at here there
          have kept : ∀ {file}, (cache.registered.erase cleared).get? file = some generation →
              cache.registered.get? file = some generation := by
            intro file found
            by_cases same : file = cleared
            · rw [same, Dictionary.get?_erase_self] at found
              cases found
            · rwa [Dictionary.get?_erase_of_ne _ same] at found
          exact ih (kept here) (kept there)
      | none begins silent clears registered running taint nextGeneration =>
          rw [registered] at here there
          exact ih here there

end Chronicle

/-- **The representation of a cache.** While there are fewer reports than identifiers a cache is
consistent, whatever has happened to it, and its next number is zero only when the last identifier
has been given. -/
theorem always_consistent {cache : Cache} (past : Chronicle cache)
    (few : past.reports.length < UInt64.size) :
    cache.Consistent ∧ (cache.nextId.number = 0 ↔ past.reports.length + 1 = UInt64.size) := by
  refine ⟨?_, past.nextId_eq_zero_iff few⟩
  refine
    { committed_distinct := fun file issues stored => (past.holds_of_committed stored).2.distinct
      inProgress_distinct := fun file issues stored => (past.holds_of_inProgress stored).2.distinct
      committed_ne := ?_
      inProgress_ne := ?_
      taint_ne := fun file issues found => (past.open_taint file issues found).1
      one_le := ?_
      lt_nextId := ?_
      file_eq := ?_
      committed_lt := ?_
      keyed := fun file id found stores => past.keyed stores
      unresolved := fun file issues found => (past.open_taint file issues found).2
      registered_lt := fun file generation found => past.registered_lt found
      registered_eq := fun file other generation here there => past.registered_eq here there }
  · intro file issues stored
    obtain ⟨some, holds⟩ := past.holds_of_committed stored
    exact holds.entries_ne some
  · intro file issues stored
    obtain ⟨some, holds⟩ := past.holds_of_inProgress stored
    exact holds.entries_ne some
  · intro file id found stores
    obtain ⟨report, made, _, rfl⟩ := past.report_of_stores stores
    exact (past.number_of_report few made).1
  · intro file id found stores
    obtain ⟨report, made, _, rfl⟩ := past.report_of_stores stores
    exact (past.number_of_report few made).2
  · intro file other id found another here there
    obtain ⟨report, made, rfl, rfl⟩ := past.report_of_stores here
    obtain ⟨twin, madeThere, rfl, same⟩ := past.report_of_stores there
    rw [past.eq_of_id few madeThere made same]
  · intro file old new committed inProgress earlier inOld later inNew
    -- Reports that are kept were made before those that are not yet committed.
    have ascending := (past.ascending_ids few).sublist ((past.kept_sublist file).map Report.id)
    rw [List.map_append] at ascending
    obtain ⟨_, _, apart⟩ := List.pairwise_append.mp ascending
    obtain ⟨first, kept, rfl⟩ := (past.holds_of_committed committed).2.exists_report inOld
    obtain ⟨second, recent, rfl⟩ := (past.holds_of_inProgress inProgress).2.exists_report inNew
    exact apart _ (List.mem_map_of_mem kept) _ (List.mem_map_of_mem recent)

/-- What a server says of the taint issues of the main file; one of them is resolved. -/
def answered : List TaintIssue :=
  [{ key := "t1", ruleKey := "r:2", message := "t", severity := .major
     range := (finding "t" 3).range, flows := [], resolved := false },
    { key := "t2", ruleKey := "r:2", message := "t", severity := .major
      range := (finding "t" 4).range, flows := [], resolved := true }]

/-- A pass that has been committed, with a resolved issue, and another one that is under way, after
a refresh. -/
def underWay :=
  ((((((Chronicle.beginning.next (.schedule project mainDocument) trivial).next
    (.finish ⟨0, mainFile⟩ (some answered)) (by decide)).next
    (.start mainFile) trivial).next
    (.reportTracked mainDocument (finding "m" 1) (heard.get mainDocument.relativePath))
      trivial).next
    (.succeed mainFile 0) trivial).next
    (.start mainFile) trivial).next
    (.report mainDocument (finding "n" 2)) trivial

/-- A cache that stores issues of every kind is consistent. -/
theorem underWay_consistent :
    ∃ (cache : Cache) (past : Chronicle cache), past.reports.length < UInt64.size ∧
      (((cache.committed.get? mainFile).bind (·.get? ⟨1⟩)).map LocalIssue.status =
        some { key := some "k", resolved := true }) ∧
      (((cache.inProgress.get? mainFile).bind (·.get? ⟨2⟩)).map LocalIssue.status =
        some .unknown) ∧
      cache.taint.get mainFile = answered.take 1 ∧ cache.registered.get? mainFile = some 0 ∧
      cache.Consistent ∧ cache.nextId = ⟨3⟩ := by
  have few : underWay.reports.length < UInt64.size := by decide
  exact ⟨_, underWay, few, by decide +kernel, by decide +kernel, by decide +kernel,
    by decide +kernel, (always_consistent underWay few).1, by decide +kernel⟩

end Cache
end IssueRelay
