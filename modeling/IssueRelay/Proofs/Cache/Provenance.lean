import IssueRelay.Proofs.Cache.Coherence
import IssueRelay.Proofs.Diagnostic.OfIssues

/-!
# From diagnostics back to issues

An editor hands diagnostics back long after they were published. While there are fewer reports than
identifiers, the diagnostic of a report leads to this report or nowhere, whatever file it is looked
up in; and when it has just been published, it leads to what it was made of
(`IssueRelay.Cache.diagnostics_lead_back`).
-/

namespace IssueRelay.Cache

/-! ## Looking up diagnostics of issues -/

section Lookup

variable (cache : Cache) (file uri : Url)

/-- The diagnostic of a reported issue leads to whatever the file has under the identifier in its
data. -/
theorem issueFor?_ofLocal (id : IssueId) (issue : Issue) :
    cache.issueFor? file (.ofLocal uri id issue) = cache.issue? file id := by
  simp [issueFor?, Diagnostic.ofLocal, Diagnostic.dataText?]

/-- The diagnostic of a reported issue leads to no vulnerability. -/
theorem taintFor?_ofLocal (id : IssueId) (issue : Issue) :
    cache.taintFor? file (.ofLocal uri id issue) = none :=
  if_neg (by decide : ¬ some Diagnostic.localSource = some Diagnostic.taintSource)

/-- The diagnostic of a vulnerability leads to no reported issue. -/
theorem issueFor?_ofTaint (issue : TaintIssue) :
    cache.issueFor? file (.ofTaint uri issue) = none :=
  if_neg (by decide : ¬ some Diagnostic.taintSource = some Diagnostic.localSource)

/-- The diagnostic of a vulnerability leads to the file's first vulnerability with the key in its
data. -/
theorem taintFor?_ofTaint (issue : TaintIssue) :
    cache.taintFor? file (.ofTaint uri issue) =
      (cache.taint.get file).find? (·.key = issue.key) := by
  simp [taintFor?, Diagnostic.ofTaint, Diagnostic.dataText?]

/-- The diagnostic of a taint issue leads to a stored one with its key: to the issue itself, if no
two stored issues have the same key. -/
theorem exists_taintFor?_ofTaint {issue : TaintIssue} (stored : issue ∈ cache.taint.get file) :
    ∃ found ∈ cache.taint.get file,
      cache.taintFor? file (.ofTaint uri issue) = some found ∧ found.key = issue.key ∧
        (((cache.taint.get file).map TaintIssue.key).Nodup → found = issue) := by
  rw [taintFor?_ofTaint]
  have present : ((cache.taint.get file).find? (·.key = issue.key)).isSome :=
    List.find?_isSome.mpr ⟨issue, stored, decide_eq_true rfl⟩
  obtain ⟨found, first⟩ := Option.isSome_iff_exists.mp present
  have member := List.mem_of_find?_eq_some first
  have same : found.key = issue.key := by simpa using List.find?_some first
  refine ⟨found, member, first, same, fun distinct => ?_⟩
  exact List.inj_on_of_nodup_map distinct member stored same

end Lookup

/-- A diagnostic of a file leads to what it was made of: to an issue that a reader sees, or to a
stored taint issue, and then not to a local one. -/
inductive LeadsBack (cache : Cache) (file : Url) (diagnostic : Diagnostic) : Prop
  | issue (source : diagnostic.source = some Diagnostic.localSource) (id : IssueId)
      (found : LocalIssue) (seen : cache.issue? file id = some found)
      (resolved : cache.issueFor? file diagnostic = some found)
      (same : Diagnostic.ofLocal file id found.issue = diagnostic)
  | taint (source : diagnostic.source = some Diagnostic.taintSource) (issue found : TaintIssue)
      (same : Diagnostic.ofTaint file issue = diagnostic)
      (shown : issue ∈ cache.taint.get file) (stored : found ∈ cache.taint.get file)
      (resolved : cache.taintFor? file diagnostic = some found) (key : found.key = issue.key)
      (exact : ((cache.taint.get file).map TaintIssue.key).Nodup → found = issue)
      (foreign : ∀ other, cache.issueFor? other diagnostic = none)

/-- What an editor ought to see of a file leads back. -/
theorem leadsBack_of_shown {cache : Cache} {file : Url} (distinct : (cache.current file).Distinct)
    {diagnostic : Diagnostic} (shown : diagnostic ∈ cache.shown file) :
    LeadsBack cache file diagnostic := by
  rcases Diagnostic.mem_ofIssues shown with ⟨id, found, entry, rfl⟩ | ⟨issue, stored, rfl⟩
  · have seen : cache.issue? file id = some found := distinct.get?_eq_some_iff.mpr entry
    refine .issue rfl id found seen ?_ rfl
    rw [issueFor?_ofLocal, seen]
  · obtain ⟨found, member, resolved, key, exact⟩ := cache.exists_taintFor?_ofTaint file file stored
    exact .taint rfl issue found rfl stored member resolved key exact
      fun other => cache.issueFor?_ofTaint other file issue

namespace Chronicle

variable {cache : Cache} {file : Url}

/-- The uncommitted reports of a file are reports on it. -/
theorem file_of_uncommitted (past : Chronicle cache) :
    ∀ report ∈ past.uncommitted file, report.file = file := by
  induction past with
  | beginning => exact fun _ member => nomatch member
  | @next cache past action possible ih =>
      intro report member
      rw [uncommitted] at member
      split at member
      · cases member
      · rcases List.mem_append.mp member with earlier | last
        · exact ih report earlier
        · exact of_decide_eq_true (List.mem_filter.mp last).2

/-- The committed reports of a file are reports on it. -/
theorem file_of_committedReports (past : Chronicle cache) :
    ∀ report ∈ past.committedReports file, report.file = file := by
  induction past with
  | beginning => exact fun _ member => nomatch member
  | @next cache past action possible ih =>
      intro report member
      rw [committedReports] at member
      split at member
      · cases member
      · split at member
        · exact past.file_of_uncommitted report member
        · exact ih report member

/-- Every report visible in a file is a report on it. -/
theorem file_of_visibleReports (past : Chronicle cache) :
    ∀ report ∈ past.visibleReports file, report.file = file := by
  intro report member
  rw [visibleReports] at member
  split at member
  · exact past.file_of_committedReports report member
  · exact past.file_of_uncommitted report member

/-- Every issue that a reader sees has been reported. -/
theorem report_of_issue? (past : Chronicle cache) {id : IssueId} {found : LocalIssue}
    (seen : cache.issue? file id = some found) :
    ∃ report ∈ past.visibleReports file,
      report.id = id ∧ (report.issue, report.documentVersion) = found.asReported := by
  have sees := (sees_of_holds (past.refines file).current_holds).1 id
  rw [seen, Option.map_some] at sees
  obtain ⟨report, latest, same⟩ := Option.map_eq_some_iff.mp sees.symm
  have named : report.id = id := by simpa using List.find?_some latest
  exact ⟨report, List.mem_reverse.mp (List.mem_of_find?_eq_some latest), named, same⟩

/-- Every local diagnostic that was ever published for a file is that of a report on the file. -/
theorem report_of_published (past : Chronicle cache) {list : List Diagnostic}
    (published : (file, list) ∈ publications past.effects) {diagnostic : Diagnostic}
    (shown : diagnostic ∈ list) (source : diagnostic.source = some Diagnostic.localSource) :
    ∃ report ∈ past.reports,
      report.file = file ∧ diagnostic = .ofLocal file report.id report.issue := by
  induction past with
  | beginning => cases published
  | @next cache past action possible ih =>
      rw [effects, publications_append] at published
      rcases List.mem_append.mp published with earlier | last
      · obtain ⟨report, member, made⟩ := ih earlier
        exact ⟨report, List.mem_append_left _ member, made⟩
      · rw [past.publications_act action possible] at last
        obtain ⟨shownFile, _, same⟩ := List.mem_map.mp last
        obtain ⟨rfl, rfl⟩ := Prod.mk.inj same
        let later := past.next action possible
        have distinct := (later.refines shownFile).current_holds.distinct
        cases leadsBack_of_shown distinct shown with
        | issue _ id found seen resolved made =>
            obtain ⟨report, visible, rfl, reported⟩ := later.report_of_issue? seen
            have issue : report.issue = found.issue := congrArg Prod.fst reported
            refine ⟨report, (later.visibleReports_sublist shownFile).subset visible,
              later.file_of_visibleReports report visible, ?_⟩
            rw [issue, made]
        | taint foreign =>
            rw [source] at foreign
            exact absurd foreign (by decide)

/-- While there are fewer reports than identifiers, each is the only one under its identifier. -/
theorem eq_of_id (past : Chronicle cache) (few : past.reports.length < UInt64.size)
    {left right : Report} (inLeft : left ∈ past.reports) (inRight : right ∈ past.reports)
    (same : left.id = right.id) : left = right :=
  List.inj_on_of_nodup_map (past.nodup_ids few) inLeft inRight same

/-- The diagnostic of a report leads to this report or nowhere, and only while a reader of its file
sees the report. -/
theorem issueFor?_of_report (past : Chronicle cache) (few : past.reports.length < UInt64.size)
    {report : Report} (made : report ∈ past.reports) {other : Url} {found : LocalIssue}
    (resolved : cache.issueFor? other (.ofLocal file report.id report.issue) = some found) :
    other = report.file ∧ report ∈ past.visibleReports other ∧
      found.asReported = (report.issue, report.documentVersion) := by
  rw [issueFor?_ofLocal] at resolved
  obtain ⟨candidate, visible, same, reported⟩ := past.report_of_issue? resolved
  have among := (past.visibleReports_sublist other).subset visible
  obtain rfl := past.eq_of_id few among made same
  exact ⟨(past.file_of_visibleReports candidate visible).symm, visible, reported.symm⟩

end Chronicle

/-- **Opaque identifiers.** Every local diagnostic that was ever published for a file is that of one
report on it, the only one under its identifier. It is never taken for a taint issue, and the only
issue to which it leads is the one reported, in its own file and while a reader sees the report. And
every diagnostic that has just been published leads back. -/
theorem diagnostics_lead_back {cache : Cache} (past : Chronicle cache) :
    (past.reports.length < UInt64.size →
      ∀ file list, (file, list) ∈ publications past.effects →
        ∀ diagnostic ∈ list, diagnostic.source = some Diagnostic.localSource →
          ∃ report ∈ past.reports, report.file = file ∧
            diagnostic = .ofLocal file report.id report.issue ∧
            (∀ candidate ∈ past.reports, candidate.id = report.id → candidate = report) ∧
            ∀ other, cache.taintFor? other diagnostic = none ∧
              ∀ found, cache.issueFor? other diagnostic = some found →
                other = file ∧ report ∈ past.visibleReports file ∧
                  found.issue = report.issue ∧ found.documentVersion = report.documentVersion) ∧
      ∀ action, action.Possible cache →
        ∀ file list, (file, list) ∈ publications (act action cache).2 →
          ∀ diagnostic ∈ list, LeadsBack (act action cache).1 file diagnostic := by
  refine ⟨fun few file list published diagnostic shown source => ?_,
    fun action possible file list published diagnostic shown => ?_⟩
  · obtain ⟨report, made, rfl, rfl⟩ := past.report_of_published published shown source
    refine ⟨report, made, rfl, rfl, fun candidate among => past.eq_of_id few among made,
      fun other => ⟨cache.taintFor?_ofLocal other _ _ _, fun found resolved => ?_⟩⟩
    obtain ⟨rfl, visible, reported⟩ := past.issueFor?_of_report few made resolved
    obtain ⟨issue, version⟩ := Prod.mk.inj reported
    exact ⟨rfl, visible, issue, version⟩
  · rw [past.publications_act action possible] at published
    obtain ⟨shownFile, _, same⟩ := List.mem_map.mp published
    obtain ⟨rfl, rfl⟩ := Prod.mk.inj same
    have distinct := ((past.next action possible).refines shownFile).current_holds.distinct
    exact leadsBack_of_shown distinct shown

end IssueRelay.Cache
