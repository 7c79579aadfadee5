import IssueRelay.Proofs.Cache.Chronicle

/-!
# The cache as a double buffer

Of every file a reader sees the reports of the pass under way as soon as there are any, and
otherwise what the last commit has left. Both are told here by what has happened to the file:
`IssueRelay.Cache.Chronicle.uncommitted` are the reports since the last start, failure, commit or
clear, and `IssueRelay.Cache.Chronicle.lastCommitted` is the set that such reports made up when
they were last committed. The main statement is that these two are what a reader sees
(`IssueRelay.Cache.visible_refines_doubleBuffer`).
-/

namespace IssueRelay

open Cache

/-- The latest of the reports that have an identifier, as it was made. -/
def Cache.latest? (id : IssueId) (reports : List Report) : Option (Issue × Int32) :=
  (reports.reverse.find? fun report => report.id = id).map fun report =>
    (report.issue, report.documentVersion)

/-- One more report hides any earlier one under its identifier, and no other. -/
theorem Cache.latest?_append_singleton (id : IssueId) (reports : List Report) (report : Report) :
    latest? id (reports ++ [report]) =
      if id = report.id then some (report.issue, report.documentVersion)
      else latest? id reports := by
  by_cases same : id = report.id
  · simp [latest?, same]
  · simp [latest?, same, Ne.symm same]

/-- There is a latest report under an identifier exactly if there is any. -/
theorem Cache.isSome_latest? {id : IssueId} {reports : List Report} :
    (latest? id reports).isSome ↔ id ∈ reports.map Report.id := by
  simp [latest?]

/-- A set has exactly the reports of a list: under each identifier the latest that was given it. -/
structure IssueSet.Holds (issues : IssueSet) (reports : List Report) : Prop where
  distinct : issues.Distinct
  found : ∀ id, issues.asReported.get? id = latest? id reports

namespace IssueSet

/-- The empty set holds no reports. -/
theorem holds_empty : (∅ : IssueSet).Holds [] :=
  ⟨Dictionary.distinct_empty, fun _ => rfl⟩

/-- A set that gets a report holds one more. -/
theorem Holds.add {old issues : IssueSet} {reports : List Report} {report : Report}
    (holds : old.Holds reports) (adds : Adds report old issues) :
    issues.Holds (reports ++ [report]) := by
  obtain ⟨distinct, lookups⟩ := adds
  refine ⟨distinct, fun id => ?_⟩
  rw [lookups, latest?_append_singleton, holds.found]

/-- There are as many issues as identifiers. -/
theorem Holds.size_eq {issues : IssueSet} {reports : List Report} (holds : issues.Holds reports) :
    issues.size = (reports.map Report.id).dedup.length := by
  have members : ∀ id, id ∈ issues.keys ↔ id ∈ (reports.map Report.id).dedup := by
    intro id
    rw [List.mem_dedup, ← isSome_latest?, ← holds.found, get?_asReported, Option.isSome_map,
      Dictionary.mem_keys_iff]
  have permuted : issues.keys.Perm (reports.map Report.id).dedup :=
    (List.perm_ext_iff_of_nodup holds.distinct (List.nodup_dedup _)).mpr members
  rw [← length_keys, permuted.length_eq]

end IssueSet

namespace Cache

/-- A reader of a file sees exactly the reports of a list. -/
def Sees (cache : Cache) (file : Url) (reports : List Report) : Prop :=
  (∀ id, (cache.issue? file id).map LocalIssue.asReported = latest? id reports) ∧
    cache.count file = (reports.map Report.id).dedup.length

/-- A reader sees the reports that the current set holds. -/
theorem sees_of_holds {cache : Cache} {file : Url} {reports : List Report}
    (holds : (cache.current file).Holds reports) : cache.Sees file reports := by
  refine ⟨fun id => ?_, holds.size_eq⟩
  rw [← holds.found, IssueSet.get?_asReported]
  rfl

namespace Chronicle

variable {cache : Cache}

/-- The reports on a file since the last start, failure, commit or clear of it. -/
def uncommitted (file : Url) : {cache : Cache} → Chronicle cache → List Report
  | _, .beginning => []
  | _, @next cache past action _ =>
    if action.endsPass cache file then []
    else past.uncommitted file ++
      (action.reported? cache).toList.filter (·.file = file)

/-- What the uncommitted reports on a file make up, with what the server says of them. -/
def uncommittedIssues (file : Url) (past : Chronicle cache) : IssueSet :=
  if (past.uncommitted file).isEmpty then ∅ else cache.current file

/-- The reports on a file that were uncommitted when it was last committed, or none if it has been
cleared since. -/
def committedReports (file : Url) : {cache : Cache} → Chronicle cache → List Report
  | _, .beginning => []
  | _, @next cache past action _ =>
    if action.clears file then []
    else if action.commits cache file then past.uncommitted file
    else past.committedReports file

/-- What the reports on a file made up when it was last committed, or nothing if it has been
cleared since. -/
def lastCommitted (file : Url) : {cache : Cache} → Chronicle cache → IssueSet
  | _, .beginning => ∅
  | _, @next cache past action _ =>
    if action.clears file then ∅
    else if action.commits cache file then past.uncommittedIssues file
    else past.lastCommitted file

/-- The reports on a file that a reader sees. -/
def visibleReports (file : Url) (past : Chronicle cache) : List Report :=
  if (past.uncommitted file).isEmpty then past.committedReports file else past.uncommitted file

/-- What was committed of a file when the pass over it started, unless the file has been committed
or cleared since then. -/
def committedAtStart? (file : Url) : {cache : Cache} → Chronicle cache → Option IssueSet
  | _, .beginning => none
  | _, @next cache past action _ =>
    if action.starts file then some (past.lastCommitted file)
    else if action.commits cache file || action.clears file then none
    else past.committedAtStart? file

/-- The two buffers of a file are what has happened to it says. -/
structure Refines (file : Url) (past : Chronicle cache) : Prop where
  inProgress : (cache.inProgress.get? file = none ∧ past.uncommitted file = []) ∨
    ∃ issues, cache.inProgress.get? file = some issues ∧ past.uncommitted file ≠ [] ∧
      issues.Holds (past.uncommitted file)
  committed : (cache.committed.get? file).getD ∅ = past.lastCommitted file
  holds : (past.lastCommitted file).Holds (past.committedReports file)

variable {file : Url}

/-- Without uncommitted reports a reader sees what was last committed. -/
theorem Refines.current_of_nil {past : Chronicle cache} (refines : past.Refines file)
    (none : past.uncommitted file = []) : cache.current file = past.lastCommitted file := by
  rcases refines.inProgress with ⟨empty, _⟩ | ⟨issues, _, some, _⟩
  · rw [current, empty]
    exact refines.committed
  · exact (some none).elim

/-- The current set holds the reports that are to be visible. -/
theorem Refines.current_holds {past : Chronicle cache} (refines : past.Refines file) :
    (cache.current file).Holds (past.visibleReports file) := by
  rcases refines.inProgress with ⟨_, none⟩ | ⟨issues, found, some, holds⟩
  · rw [refines.current_of_nil none, visibleReports, none]
    exact refines.holds
  · have present : (past.uncommitted file).isEmpty = false := by simpa using some
    rw [current, found, visibleReports, present]
    exact holds

/-- What a commit of a file would leave. -/
theorem Refines.uncommittedIssues_eq {past : Chronicle cache} (refines : past.Refines file) :
    (cache.inProgress.get? file).getD ∅ = past.uncommittedIssues file ∧
      (past.uncommittedIssues file).Holds (past.uncommitted file) := by
  rcases refines.inProgress with ⟨empty, none⟩ | ⟨issues, found, some, holds⟩
  · rw [uncommittedIssues, none, empty]
    exact ⟨rfl, IssueSet.holds_empty⟩
  · have visible : cache.current file = issues := by rw [current, found]
    have present : (past.uncommitted file).isEmpty = false := by simpa using some
    rw [uncommittedIssues, present, found, visible]
    exact ⟨rfl, holds⟩

/-- The two buffers of a file stay what its history says, whatever happens: each kind of change
moves both sides alike. -/
theorem refines (past : Chronicle cache) (file : Url) : past.Refines file := by
  induction past with
  | beginning => exact ⟨.inl ⟨rfl, rfl⟩, rfl, IssueSet.holds_empty⟩
  | @next cache past action possible ih =>
      obtain ⟨filled, pending⟩ := ih.uncommittedIssues_eq
      cases bufferChange cache file action with
      | commit commits clears inProgress committed =>
          have ends : action.endsPass cache file = true := by simp [Action.endsPass, commits]
          refine ⟨.inl ⟨inProgress, ?_⟩, ?_, ?_⟩
          · simp [uncommitted, ends]
          · simp [lastCommitted, commits, clears, committed, filled]
          · simpa [lastCommitted, committedReports, commits, clears] using pending
      | clear clears inProgress committed =>
          have ends : action.endsPass cache file = true := by simp [Action.endsPass, clears]
          refine ⟨.inl ⟨inProgress, ?_⟩, ?_, ?_⟩
          · simp [uncommitted, ends]
          · simp [lastCommitted, clears, committed]
          · simpa [lastCommitted, committedReports, clears] using IssueSet.holds_empty
      | drop drops commits clears inProgress committed =>
          have ends : action.endsPass cache file = true := by simp [Action.endsPass, drops]
          refine ⟨.inl ⟨inProgress, ?_⟩, ?_, ?_⟩
          · simp [uncommitted, ends]
          · simpa [lastCommitted, commits, clears, committed] using ih.committed
          · simpa [lastCommitted, committedReports, commits, clears] using ih.holds
      | report report reported same continues committed =>
          obtain ⟨commits, clears, _⟩ := Action.endsPass_eq_false_iff.mp continues
          have grown : (past.next action possible).uncommitted file =
              past.uncommitted file ++ [report] := by
            simp [uncommitted, continues, reported, same]
          subst same
          obtain ⟨issues, found, adds⟩ :=
            inProgress_act_of_reported reported (filled ▸ pending.distinct)
          refine ⟨.inr ⟨issues, found, ?_, ?_⟩, ?_, ?_⟩
          · simp [grown]
          · rw [grown]
            exact (filled ▸ pending).add adds
          · simpa [lastCommitted, commits, clears, committed] using ih.committed
          · simpa [lastCommitted, committedReports, commits, clears] using ih.holds
      | none continues elsewhere inProgress committed =>
          obtain ⟨commits, clears, _⟩ := Action.endsPass_eq_false_iff.mp continues
          have kept : (past.next action possible).uncommitted file = past.uncommitted file := by
            simpa [uncommitted, continues] using elsewhere
          refine ⟨?_, ?_, ?_⟩
          · rw [kept, inProgress]
            exact ih.inProgress
          · simpa [lastCommitted, commits, clears, committed] using ih.committed
          · simpa [lastCommitted, committedReports, commits, clears] using ih.holds

/-- A set in progress has the uncommitted reports, of which there are some. -/
theorem holds_of_inProgress (past : Chronicle cache) {issues : IssueSet}
    (stored : cache.inProgress.get? file = some issues) :
    past.uncommitted file ≠ [] ∧ issues.Holds (past.uncommitted file) := by
  rcases (past.refines file).inProgress with ⟨none, _⟩ | ⟨held, found, some, holds⟩
  · cases stored.symm.trans none
  · obtain rfl := Option.some.inj (stored.symm.trans found)
    exact ⟨some, holds⟩

/-- Uncommitted reports are among all reports, in their order. -/
theorem uncommitted_sublist (past : Chronicle cache) (file : Url) :
    (past.uncommitted file).Sublist past.reports := by
  induction past with
  | beginning => exact .refl _
  | @next cache past action possible ih =>
      rw [uncommitted, reports]
      split
      · exact List.nil_sublist _
      · exact ih.append List.filter_sublist

/-- Committed reports are among all reports, in their order. -/
theorem committedReports_sublist (past : Chronicle cache) (file : Url) :
    (past.committedReports file).Sublist past.reports := by
  induction past with
  | beginning => exact .refl _
  | @next cache past action possible ih =>
      have grows : past.reports.Sublist (past.next action possible).reports :=
        List.sublist_append_left _ _
      rw [committedReports]
      split
      · exact List.nil_sublist _
      · split
        · exact (past.uncommitted_sublist file).trans grows
        · exact ih.trans grows

/-- Visible reports are among all reports, in their order. -/
theorem visibleReports_sublist (past : Chronicle cache) (file : Url) :
    (past.visibleReports file).Sublist past.reports := by
  rw [visibleReports]
  split
  · exact past.committedReports_sublist file
  · exact past.uncommitted_sublist file

/-- What was committed when the pass started is committed still, unless it has been replaced. -/
theorem lastCommitted_eq_of_committedAtStart? {past : Chronicle cache} {before : IssueSet}
    (undisturbed : past.committedAtStart? file = some before) :
    past.lastCommitted file = before := by
  induction past with
  | beginning => cases undisturbed
  | @next cache past action possible ih =>
      rw [committedAtStart?] at undisturbed
      by_cases starts : action.starts file
      · rw [if_pos starts] at undisturbed
        have commits : action.commits cache file = false := by
          cases action <;> simp_all [Action.starts, Action.commits]
        have clears : action.clears file = false := by
          cases action <;> simp_all [Action.starts, Action.clears]
        simpa [lastCommitted, commits, clears] using undisturbed
      · rw [if_neg starts] at undisturbed
        by_cases replaces : action.commits cache file || action.clears file
        · simp [replaces] at undisturbed
        · rw [if_neg replaces] at undisturbed
          simp only [Bool.or_eq_true, not_or, Bool.not_eq_true] at replaces
          simpa [lastCommitted, replaces] using ih undisturbed

end Chronicle

/-- **A double buffer.** A reader of a file sees the uncommitted reports on it if there are any,
and otherwise the set that was last committed, with what the server said of its issues when that
was done; while there are fewer reports than identifiers, as many issues as reports. A pass that
fails leaves visible what was committed when it started, if nothing has been committed or cleared
since. Every reported issue counts, under the identifier that its reporter has been told. -/
theorem visible_refines_doubleBuffer {cache : Cache} (past : Chronicle cache) (file : Url) :
    cache.Sees file (past.visibleReports file) ∧
      (past.reports.length < UInt64.size → cache.count file = (past.visibleReports file).length) ∧
      (past.uncommitted file = [] →
        cache.count file = (past.lastCommitted file).size ∧
          ∀ id, cache.issue? file id = (past.lastCommitted file).get? id) ∧
      (∀ before, past.committedAtStart? file = some before →
        (fail file cache).1.current file = before) ∧
      toldIds past.effects = past.reports.map Report.id := by
  have refines := past.refines file
  have sees := sees_of_holds refines.current_holds
  refine ⟨sees, fun few => ?_, fun none => ?_, fun before undisturbed => ?_,
    past.toldIds_effects⟩
  · have distinct : ((past.visibleReports file).map Report.id).Nodup :=
      (past.nodup_ids few).sublist ((past.visibleReports_sublist file).map _)
    rw [sees.2, distinct.dedup, List.length_map]
  · have visible := refines.current_of_nil none
    exact ⟨congrArg IssueSet.size visible, fun id => by rw [issue?, visible]⟩
  · have failed := (past.next (.fail file) trivial).refines file
    have dropped : (past.next (.fail file) trivial).uncommitted file = [] := by
      simp [Chronicle.uncommitted, Action.endsPass, Action.drops]
    rw [← Chronicle.lastCommitted_eq_of_committedAtStart? undisturbed]
    exact failed.current_of_nil dropped

end Cache
end IssueRelay
