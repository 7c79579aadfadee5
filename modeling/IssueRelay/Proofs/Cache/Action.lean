import IssueRelay.Proofs.Cache.Operation

/-!
# Actions of the issue cache

What happens to a cache, divided until nothing can come between: the end of a refresh and each of
the commits that have waited for it are actions of their own. What an action can do to the issues
of a file is one of five things (`IssueRelay.Cache.bufferChange`), and what it can do to the
refreshes is one of four (`IssueRelay.Cache.refreshChange`).
-/

namespace IssueRelay.Cache

open Transition

/-- Something indivisible that happens to a cache. -/
inductive Action
  | start (file : Url)
  | report (document : Document) (issue : Issue)
  | reportTracked (document : Document) (issue : Issue) (known : List ServerIssue)
  | fail (file : Url)
  | succeed (file : Url) (ticket : Nat)
  | resume (pending : WaitingCommit)
  | clear (file : Url)
  | schedule (server : Binding) (document : Document)
  | finish (refresh : Refresh) (answer : Option (List TaintIssue))
  | seedSecretSeen (seen : Bool)

/-- What an action does. -/
def act : Action → Transition Cache Effect
  | .start file => start file
  | .report document issue => report document issue
  | .reportTracked document issue known => reportTracked document issue known
  | .fail file => fail file
  | .succeed file ticket => succeed file ticket
  | .resume pending => resume pending
  | .clear file => clear file
  | .schedule server document => scheduleOne server document
  | .finish refresh answer => endRefresh refresh answer
  | .seedSecretSeen seen => change (seedSecretSeen seen)

/-- An issue that has been reported on a file, under the identifier that it was given. -/
structure Report where
  file : Url
  id : IssueId
  issue : Issue
  documentVersion : Int32
  deriving DecidableEq, Repr

namespace Action

/-- Whether an action can happen now: a refresh ends only once, and a waiting commit is made after
the refresh that it waits for. -/
def Possible (cache : Cache) : Action → Prop
  | .resume pending => pending ∈ cache.waiting ∧ cache.isRunning pending.generation = false
  | .finish refresh _ => refresh ∈ cache.running
  | _ => True

instance (cache : Cache) : (action : Action) → Decidable (action.Possible cache)
  | .resume pending =>
    inferInstanceAs
      (Decidable (pending ∈ cache.waiting ∧ cache.isRunning pending.generation = false))
  | .finish refresh _ => inferInstanceAs (Decidable (refresh ∈ cache.running))
  | .start _ | .report _ _ | .reportTracked _ _ _ | .fail _ | .succeed _ _ | .clear _
  | .schedule _ _ | .seedSecretSeen _ => isTrue trivial

/-- Whether an action commits the pass over a file. A pass that succeeds is committed at once,
unless a refresh of its file is under way. -/
def commits (cache : Cache) (file : Url) : Action → Bool
  | .succeed succeeded _ => succeeded = file && (cache.unfinished? file).isNone
  | .resume pending => pending.file = file
  | _ => false

/-- Whether an action clears a file. -/
def clears (file : Url) : Action → Bool
  | .clear cleared => cleared = file
  | _ => false

/-- Whether an action drops what the pass over a file has reported, because another one starts or
because it fails. -/
def drops (file : Url) : Action → Bool
  | .start started => started = file
  | .fail failed => failed = file
  | _ => false

/-- Whether an action starts a pass over a file. -/
def starts (file : Url) : Action → Bool
  | .start started => started = file
  | _ => false

/-- The answer with which an action ends a refresh, if there is one. -/
def answer? : Action → Option (Refresh × List TaintIssue)
  | .finish refresh (some issues) => some (refresh, issues)
  | _ => none

/-- Whether nothing that was reported on a file is in progress after an action. -/
def endsPass (cache : Cache) (file : Url) (action : Action) : Bool :=
  action.commits cache file || action.clears file || action.drops file

/-- A pass goes on as long as its file is neither committed nor cleared, and what it has reported is
not dropped. -/
theorem endsPass_eq_false_iff {cache : Cache} {file : Url} {action : Action} :
    action.endsPass cache file = false ↔
      action.commits cache file = false ∧ action.clears file = false ∧
        action.drops file = false := by
  simp [endsPass, and_assoc]

/-- The report that an action makes: its issue, under the next identifier. -/
def reported? (cache : Cache) : Action → Option Report
  | .report document issue | .reportTracked document issue _ =>
    some
      { file := document.uri
        id := cache.nextId
        issue
        documentVersion := document.version }
  | _ => none

end Action

variable (cache : Cache) (file : Url)

/-! ## What actions do to the issues in progress -/

/-- After a commit nothing is in progress. -/
theorem inProgress_commitIssues_self :
    (commitIssues file cache).inProgress.get? file = none := by
  unfold commitIssues
  split
  · exact Dictionary.get?_erase_self _ _
  · assumption

/-- A commit leaves what is in progress of other files. -/
theorem inProgress_commitIssues_of_ne {file other : Url} (different : other ≠ file) :
    (commitIssues file cache).inProgress.get? other = cache.inProgress.get? other := by
  unfold commitIssues
  split
  · exact Dictionary.get?_erase_of_ne _ different
  · rfl

/-- A commit leaves exactly what was in progress, and nothing if nothing was. -/
theorem committed_commitIssues_self :
    (commitIssues file cache).committed.get? file = cache.inProgress.get? file := by
  unfold commitIssues
  split <;> simp_all

/-- A commit leaves what is committed of other files. -/
theorem committed_commitIssues_of_ne {file other : Url} (different : other ≠ file) :
    (commitIssues file cache).committed.get? other = cache.committed.get? other := by
  unfold commitIssues
  split
  · exact Dictionary.get?_insert_of_ne _ _ different
  · exact Dictionary.get?_erase_of_ne _ different

/-- The set of a pass after one more report: as before, but for the issue that was reported. -/
def Adds (report : Report) (old issues : IssueSet) : Prop :=
  issues.Distinct ∧ ∀ id, issues.asReported.get? id =
    if id = report.id then some (report.issue, report.documentVersion)
    else old.asReported.get? id

/-- Inserting an issue under its identifier adds its report, whatever the server says of it. -/
theorem adds_insert {old : IssueSet} (distinct : old.Distinct) (report : Report)
    (status : ServerStatus) :
    Adds report old (old.insert report.id
      { issue := report.issue, documentVersion := report.documentVersion, status }) := by
  refine ⟨distinct.insert _ _, fun id => ?_⟩
  simp only [IssueSet.get?_asReported]
  by_cases same : id = report.id
  · subst same
    rw [Dictionary.get?_insert_self, if_pos rfl]
    rfl
  · rw [Dictionary.get?_insert_of_ne _ _ same, if_neg same]

/-- Tracking the issues again changes only what the server says of them. -/
theorem Adds.retrack {report : Report} {old issues : IssueSet} (adds : Adds report old issues)
    (known : List ServerIssue) : Adds report old (retrack known issues) := by
  obtain ⟨distinct, lookups⟩ := adds
  refine ⟨IssueSet.distinct_takeOver _ _ distinct, fun id => ?_⟩
  rw [Cache.retrack, IssueSet.get?_asReported_takeOver, lookups]

/-- A report is put under the next identifier, among those already made; the server has said nothing
of it yet. -/
theorem inProgress_addIssue_self (document : Document) (issue : Issue) :
    (addIssue document issue cache).inProgress.get? document.uri =
      some (((cache.inProgress.get? document.uri).getD ∅).insert cache.nextId
        { issue, documentVersion := document.version, status := .unknown }) :=
  Dictionary.get?_insert_self _ _ _

/-- A report leaves what is in progress of other files. -/
theorem inProgress_addIssue_of_ne {document : Document} (issue : Issue) {other : Url}
    (different : other ≠ document.uri) :
    (addIssue document issue cache).inProgress.get? other = cache.inProgress.get? other :=
  Dictionary.get?_insert_of_ne _ _ different

/-- Tracking goes over everything that is in progress of a file. -/
theorem inProgress_trackIssues_self {cache : Cache} {file : Url} (known : List ServerIssue)
    {issues : IssueSet} (found : cache.inProgress.get? file = some issues) :
    (trackIssues file known cache).inProgress.get? file = some (retrack known issues) := by
  simp [trackIssues, found]

/-- Tracking leaves what is in progress of other files. -/
theorem inProgress_trackIssues_of_ne {file other : Url} (known : List ServerIssue)
    (different : other ≠ file) :
    (trackIssues file known cache).inProgress.get? other = cache.inProgress.get? other := by
  unfold trackIssues
  split
  · exact Dictionary.get?_insert_of_ne _ _ different
  · rfl

/-- A report puts an issue in progress. -/
theorem inProgress_act_of_reported {cache : Cache} {action : Action} {report : Report}
    (reported : action.reported? cache = some report)
    (distinct : ((cache.inProgress.get? report.file).getD ∅).Distinct) :
    ∃ issues, (act action cache).1.inProgress.get? report.file = some issues ∧
      Adds report ((cache.inProgress.get? report.file).getD ∅) issues := by
  cases action with
  | report document issue =>
      obtain rfl : _ = report := Option.some.inj reported
      obtain ⟨seen, left⟩ := report_fst cache document issue
      refine ⟨_, ?_, adds_insert distinct _ .unknown⟩
      rw [act, left]
      exact inProgress_addIssue_self cache document issue
  | reportTracked document issue known =>
      obtain rfl : _ = report := Option.some.inj reported
      obtain ⟨seen, left⟩ := reportTracked_fst cache document issue known
      rw [act, left]
      exact ⟨_, inProgress_trackIssues_self known (inProgress_addIssue_self cache document issue),
        (adds_insert distinct _ .unknown).retrack known⟩
  | _ => exact (Option.some_ne_none report reported.symm).elim

/-- What an action can do to the issues of a file: commit them, clear them, drop those in progress,
report one more, or leave them. -/
inductive BufferChange (cache : Cache) (file : Url) (action : Action) : Prop
  | commit (commits : action.commits cache file = true) (clears : action.clears file = false)
      (inProgress : (act action cache).1.inProgress.get? file = none)
      (committed : (act action cache).1.committed.get? file = cache.inProgress.get? file)
  | clear (clears : action.clears file = true)
      (inProgress : (act action cache).1.inProgress.get? file = none)
      (committed : (act action cache).1.committed.get? file = none)
  | drop (drops : action.drops file = true) (commits : action.commits cache file = false)
      (clears : action.clears file = false)
      (inProgress : (act action cache).1.inProgress.get? file = none)
      (committed : (act action cache).1.committed.get? file = cache.committed.get? file)
  | report (report : Report) (reported : action.reported? cache = some report)
      (same : report.file = file) (continues : action.endsPass cache file = false)
      (committed : (act action cache).1.committed.get? file = cache.committed.get? file)
  | none (continues : action.endsPass cache file = false)
      (elsewhere : ∀ report, action.reported? cache = some report →
        report.file ≠ file)
      (inProgress : (act action cache).1.inProgress.get? file = cache.inProgress.get? file)
      (committed : (act action cache).1.committed.get? file = cache.committed.get? file)

/-- A commit changes the issues of its own file only. -/
private theorem bufferChange_of_commit {cache : Cache} {done file : Url} {action : Action}
    (inProgress : (act action cache).1.inProgress = (commitIssues done cache).inProgress)
    (committed : (act action cache).1.committed = (commitIssues done cache).committed)
    (commits : action.commits cache file = decide (done = file))
    (clears : action.clears file = false) (drops : action.drops file = false)
    (silent : action.reported? cache = Option.none) :
    BufferChange cache file action := by
  by_cases same : done = file
  · subst same
    refine .commit (by simp [commits]) clears ?_ ?_
    · rw [inProgress, inProgress_commitIssues_self]
    · rw [committed, committed_commitIssues_self]
  · refine .none (by simp [Action.endsPass, commits, clears, drops, same]) (by simp [silent]) ?_ ?_
    · rw [inProgress, inProgress_commitIssues_of_ne cache (Ne.symm same)]
    · rw [committed, committed_commitIssues_of_ne cache (Ne.symm same)]

/-- A report changes the issues of its own file only. -/
private theorem bufferChange_of_report {cache : Cache} {file : Url} {action : Action}
    {report : Report} (reported : action.reported? cache = some report)
    (continues : action.endsPass cache file = false)
    (inProgress : ∀ other, other ≠ report.file →
      (act action cache).1.inProgress.get? other = cache.inProgress.get? other)
    (committed : (act action cache).1.committed = cache.committed) :
    BufferChange cache file action := by
  by_cases same : report.file = file
  · exact .report report reported same continues (by rw [committed])
  · refine .none continues ?_ (inProgress file (Ne.symm same)) (by rw [committed])
    intro other found
    obtain rfl : report = other := Option.some.inj (reported.symm.trans found)
    exact same

/-- Every action does one of these things to the issues of a file. All that follows about the two
sets of a file rests on this. -/
theorem bufferChange (cache : Cache) (file : Url) (action : Action) :
    BufferChange cache file action := by
  cases action with
  | start dropped | fail dropped =>
      by_cases same : dropped = file
      · subst same
        exact .drop (decide_eq_true rfl) rfl rfl (Dictionary.get?_erase_self _ _) rfl
      · exact .none (decide_eq_false same) (fun _ reported => nomatch reported)
          (Dictionary.get?_erase_of_ne _ (Ne.symm same)) rfl
  | report document issue =>
      obtain ⟨seen, left⟩ := report_fst cache document issue
      refine bufferChange_of_report rfl rfl ?_ (by rw [act, left]; rfl)
      intro other different
      rw [act, left]
      exact inProgress_addIssue_of_ne cache issue different
  | reportTracked document issue known =>
      obtain ⟨seen, left⟩ := reportTracked_fst cache document issue known
      refine bufferChange_of_report rfl rfl ?_ (by rw [act, left]; rfl)
      intro other different
      rw [act, left]
      exact (inProgress_trackIssues_of_ne _ known different).trans
        (inProgress_addIssue_of_ne cache issue different)
  | succeed succeeded ticket =>
      cases unfinished : cache.unfinished? succeeded with
      | some generation =>
          have waits := succeed_of_unfinished cache ticket unfinished
          refine .none ?_ (fun _ reported => nomatch reported) (by rw [act, waits])
            (by rw [act, waits])
          by_cases same : succeeded = file
          · subst same
            simp [Action.endsPass, Action.commits, Action.clears, Action.drops, unfinished]
          · simp [Action.endsPass, Action.commits, Action.clears, Action.drops, same]
      | none =>
          obtain ⟨seen, left⟩ := commit_fst cache succeeded
          have commits := succeed_of_finished cache ticket unfinished
          refine bufferChange_of_commit (by rw [act, commits, left]) (by rw [act, commits, left])
            ?_ rfl rfl rfl
          by_cases same : succeeded = file
          · subst same
            simp [Action.commits, unfinished]
          · simp [Action.commits, same]
  | resume pending =>
      obtain ⟨seen, left⟩ := resume_fst cache pending
      exact bufferChange_of_commit (by rw [act, left]) (by rw [act, left]) rfl rfl rfl rfl
  | clear cleared =>
      have left := clear_fst cache cleared
      by_cases same : cleared = file
      · subst same
        refine .clear (decide_eq_true rfl) ?_ ?_
        · rw [act, left]
          exact Dictionary.get?_erase_self _ _
        · rw [act, left]
          exact Dictionary.get?_erase_self _ _
      · refine .none (by simp [Action.endsPass, Action.commits, Action.clears, Action.drops, same])
          (fun _ reported => nomatch reported) ?_ ?_
        · rw [act, left]
          exact Dictionary.get?_erase_of_ne _ (Ne.symm same)
        · rw [act, left]
          exact Dictionary.get?_erase_of_ne _ (Ne.symm same)
  | schedule server document =>
      cases updating : cache.isUpdating document.uri with
      | true =>
          have left := scheduleOne_of_updating cache server updating
          exact .none rfl (fun _ reported => nomatch reported) (by rw [act, left])
            (by rw [act, left])
      | false =>
          have left := scheduleOne_of_idle cache server updating
          exact .none rfl (fun _ reported => nomatch reported) (by rw [act, left])
            (by rw [act, left])
  | finish refresh answer =>
      obtain ⟨taint, seen, left⟩ := endRefresh_fst cache refresh answer
      exact .none rfl (fun _ reported => nomatch reported) (by rw [act, left]) (by rw [act, left])
  | seedSecretSeen seen => exact .none rfl (fun _ reported => nomatch reported) rfl rfl

/-! ## What actions do to refreshes -/

/-- The taint issues when a refresh has ended: those of its file are replaced if it is registered
still and has been answered. -/
def taintAfter (cache : Cache) (refresh : Refresh) : Option (List TaintIssue) → TaintStore
  | some issues =>
    if cache.registered.get? refresh.file = some refresh.generation then
      cache.taint.reload refresh.file issues
    else cache.taint
  | none => cache.taint

/-- A refresh leaves the taint issues of a file unless it is a refresh of this file that has been
answered and counts. -/
theorem get_taintAfter {cache : Cache} {refresh : Refresh} {answer : Option (List TaintIssue)}
    {file : Url}
    (foreign : ∀ issues, answer = some issues →
      cache.registered.get? refresh.file = some refresh.generation → file ≠ refresh.file) :
    (cache.taintAfter refresh answer).get file = cache.taint.get file := by
  cases answer with
  | none => rfl
  | some issues =>
      rw [taintAfter]
      split
      · rename_i counts
        exact TaintStore.get_reload_of_ne _ _ (foreign issues rfl counts)
      · rfl

/-- A refresh begins when it is scheduled while its file is not being refreshed. -/
theorem begun_act (cache : Cache) (action : Action) :
    begun (act action cache).2 =
      match action with
      | .schedule _ document =>
        if cache.isUpdating document.uri then [] else [⟨cache.nextGeneration, document.uri⟩]
      | _ => [] := by
  cases action with
  | start | fail | seedSecretSeen => rfl
  | report document issue => exact (onlyShow_publish _ _).begun
  | reportTracked document issue known => exact (onlyShow_publish _ _).begun
  | succeed file ticket =>
      rw [act]
      cases unfinished : cache.unfinished? file with
      | some generation =>
          rw [succeed_of_unfinished cache ticket unfinished]
          rfl
      | none =>
          rw [succeed_of_finished cache ticket unfinished, begun_append,
            (onlyShow_commit _ _).begun]
          rfl
  | resume pending =>
      rw [act, resume_apply, begun_append, (onlyShow_commit _ _).begun]
      rfl
  | clear file => exact (onlyShow_display _ file ∅ []).begun
  | schedule server document =>
      rw [act]
      cases updating : cache.isUpdating document.uri with
      | true =>
          rw [scheduleOne_of_updating cache server updating]
          simp [begun, updating]
      | false =>
          rw [scheduleOne_of_idle cache server updating]
          simp [begun, updating]
  | finish refresh answer => exact (onlyShow_endRefresh cache refresh answer).begun

/-- What an action can do to the refreshes and to the taint issues that they bring: begin a refresh
of a file that has none under way, end a refresh, clear a file, or leave them. -/
inductive RefreshChange (cache : Cache) (action : Action) : Prop
  | start (refresh : Refresh) (begins : begun (act action cache).2 = [refresh])
      (fresh : refresh.generation = cache.nextGeneration)
      (idle : cache.isUpdating refresh.file = false)
      (silent : action.answer? = none) (clears : ∀ file, action.clears file = false)
      (left : (act action cache).1 =
        { cache with
          registered := cache.registered.insert refresh.file refresh.generation
          running := cache.running ++ [refresh]
          nextGeneration := cache.nextGeneration + 1 })
  | finish (refresh : Refresh) (answer : Option (List TaintIssue))
      (same : action = .finish refresh answer) (begins : begun (act action cache).2 = [])
      (clears : ∀ file, action.clears file = false)
      (registered : (act action cache).1.registered = cache.registered)
      (running : (act action cache).1.running = cache.running.filter (· ≠ refresh))
      (taint : (act action cache).1.taint = cache.taintAfter refresh answer)
      (nextGeneration : (act action cache).1.nextGeneration = cache.nextGeneration)
  | clear (file : Url) (clears : ∀ other, action.clears other = decide (file = other))
      (begins : begun (act action cache).2 = []) (silent : action.answer? = none)
      (registered : (act action cache).1.registered = cache.registered.erase file)
      (running : (act action cache).1.running = cache.running)
      (taint : (act action cache).1.taint = cache.taint.remove file)
      (nextGeneration : (act action cache).1.nextGeneration = cache.nextGeneration)
  | none (begins : begun (act action cache).2 = []) (silent : action.answer? = none)
      (clears : ∀ file, action.clears file = false)
      (registered : (act action cache).1.registered = cache.registered)
      (running : (act action cache).1.running = cache.running)
      (taint : (act action cache).1.taint = cache.taint)
      (nextGeneration : (act action cache).1.nextGeneration = cache.nextGeneration)

/-- Every action does one of these things to the refreshes. All that follows about refreshes rests
on this. -/
theorem refreshChange (cache : Cache) (action : Action) : RefreshChange cache action := by
  cases action with
  | start | fail | seedSecretSeen =>
      exact .none rfl rfl (fun _ => rfl) rfl rfl rfl rfl
  | report document issue =>
      obtain ⟨seen, left⟩ := report_fst cache document issue
      refine .none (begun_act cache _) rfl (fun _ => rfl) ?_ ?_ ?_ ?_ <;>
        · rw [act, left]
          rfl
  | reportTracked document issue known =>
      obtain ⟨seen, left⟩ := reportTracked_fst cache document issue known
      refine .none (begun_act cache _) rfl (fun _ => rfl) ?_ ?_ ?_ ?_ <;>
        · rw [act, left]
          rfl
  | succeed file ticket =>
      cases unfinished : cache.unfinished? file with
      | some generation =>
          have waits := succeed_of_unfinished cache ticket unfinished
          refine .none (begun_act cache _) rfl (fun _ => rfl) ?_ ?_ ?_ ?_ <;> rw [act, waits]
      | none =>
          obtain ⟨seen, left⟩ := commit_fst cache file
          have commits := succeed_of_finished cache ticket unfinished
          refine .none (begun_act cache _) rfl (fun _ => rfl) ?_ ?_ ?_ ?_ <;>
            rw [act, commits, left]
  | resume pending =>
      obtain ⟨seen, left⟩ := resume_fst cache pending
      refine .none (begun_act cache _) rfl (fun _ => rfl) ?_ ?_ ?_ ?_ <;> rw [act, left]
  | clear file =>
      have left := clear_fst cache file
      exact .clear file (fun _ => rfl) (begun_act cache _) rfl (by rw [act, left])
        (by rw [act, left]) (by rw [act, left]) (by rw [act, left])
  | schedule server document =>
      cases updating : cache.isUpdating document.uri with
      | true =>
          have left := scheduleOne_of_updating cache server updating
          refine .none ?_ rfl (fun _ => rfl) ?_ ?_ ?_ ?_ <;> rw [act, left]
          rfl
      | false =>
          have left := scheduleOne_of_idle cache server updating
          refine .start ⟨cache.nextGeneration, document.uri⟩ ?_ rfl updating rfl (fun _ => rfl) ?_
          · rw [act, left]
            rfl
          · rw [act, left]
  | finish refresh answer =>
      by_cases registered : cache.registered.get? refresh.file = some refresh.generation
      · cases answer with
        | none => exact .finish refresh Option.none rfl rfl (fun _ => rfl) rfl rfl rfl rfl
        | some issues =>
            obtain ⟨seen, left⟩ := endRefresh_fst_of_registered cache issues registered
            refine .finish refresh (some issues) rfl (begun_act cache _) (fun _ => rfl) ?_ ?_ ?_ ?_
            · rw [act, left]
              rfl
            · rw [act, left]
            · rw [act, left]
              exact (if_pos registered).symm
            · rw [act, left]
              rfl
      · have left := endRefresh_of_unregistered cache answer registered
        refine .finish refresh answer rfl (begun_act cache _) (fun _ => rfl) ?_ ?_ ?_ ?_ <;>
          rw [act, left]
        cases answer with
        | none => rfl
        | some issues => exact (if_neg registered).symm

/-! ## What actions do to waiting commits -/

/-- What waits is changed by a pass that has to wait, and by a commit that has waited. -/
theorem waiting_act (cache : Cache) (action : Action) :
    (act action cache).1.waiting =
      match action with
      | .succeed file ticket =>
        cache.waiting ++ ((cache.unfinished? file).map fun generation =>
          { ticket, file, generation }).toList
      | .resume pending => cache.waiting.erase pending
      | _ => cache.waiting := by
  cases action with
  | start | fail | seedSecretSeen => rfl
  | report document issue =>
      obtain ⟨seen, left⟩ := report_fst cache document issue
      rw [act, left]
      rfl
  | reportTracked document issue known =>
      obtain ⟨seen, left⟩ := reportTracked_fst cache document issue known
      rw [act, left]
      rfl
  | succeed file ticket =>
      rw [act]
      cases unfinished : cache.unfinished? file with
      | some generation => simp [succeed_of_unfinished cache ticket unfinished, unfinished]
      | none =>
          obtain ⟨seen, left⟩ := commit_fst cache file
          simp [succeed_of_finished cache ticket unfinished, left, unfinished]
  | resume pending =>
      obtain ⟨seen, left⟩ := resume_fst cache pending
      rw [act, left]
  | clear file => rw [act, clear_fst]
  | schedule server document =>
      cases updating : cache.isUpdating document.uri with
      | true => rw [act, scheduleOne_of_updating cache server updating]
      | false => rw [act, scheduleOne_of_idle cache server updating]
  | finish refresh answer =>
      obtain ⟨taint, seen, left⟩ := endRefresh_fst cache refresh answer
      rw [act, left]

/-- A call returns when it commits. -/
theorem returned_act (cache : Cache) (action : Action) :
    returned (act action cache).2 =
      match action with
      | .succeed file ticket => if (cache.unfinished? file).isNone then [ticket] else []
      | .resume pending => [pending.ticket]
      | _ => [] := by
  cases action with
  | start | fail | seedSecretSeen => rfl
  | report document issue => exact (onlyShow_publish _ _).returned
  | reportTracked document issue known => exact (onlyShow_publish _ _).returned
  | succeed file ticket =>
      rw [act]
      cases unfinished : cache.unfinished? file with
      | some generation =>
          simp [succeed_of_unfinished cache ticket unfinished, returned, unfinished]
      | none =>
          rw [succeed_of_finished cache ticket unfinished, returned_append,
            (onlyShow_commit _ _).returned]
          simp [returned, unfinished]
  | resume pending =>
      rw [act, resume_apply, returned_append, (onlyShow_commit _ _).returned]
      rfl
  | clear file => exact (onlyShow_display _ file ∅ []).returned
  | schedule server document =>
      cases updating : cache.isUpdating document.uri with
      | true =>
          rw [act, scheduleOne_of_updating cache server updating]
          rfl
      | false =>
          rw [act, scheduleOne_of_idle cache server updating]
          rfl
  | finish refresh answer => exact (onlyShow_endRefresh cache refresh answer).returned

/-! ## What reporters are told -/

/-- The reporter of an issue is told the identifier of its report, and no one else is told any. -/
theorem toldIds_act (cache : Cache) (action : Action) :
    toldIds (act action cache).2 = ((action.reported? cache).map Report.id).toList := by
  cases action with
  | start | fail | seedSecretSeen => rfl
  | report document issue =>
      exact congrArg (cache.nextId :: ·) (onlyShow_publish _ _).toldIds
  | reportTracked document issue known =>
      exact congrArg (cache.nextId :: ·) (onlyShow_publish _ _).toldIds
  | succeed file ticket =>
      rw [act]
      cases unfinished : cache.unfinished? file with
      | some generation =>
          rw [succeed_of_unfinished cache ticket unfinished]
          rfl
      | none =>
          rw [succeed_of_finished cache ticket unfinished, toldIds_append,
            (onlyShow_commit _ _).toldIds]
          rfl
  | resume pending =>
      rw [act, resume_apply, toldIds_append, (onlyShow_commit _ _).toldIds]
      rfl
  | clear file => exact (onlyShow_display _ file ∅ []).toldIds
  | schedule server document =>
      cases updating : cache.isUpdating document.uri with
      | true =>
          rw [act, scheduleOne_of_updating cache server updating]
          rfl
      | false =>
          rw [act, scheduleOne_of_idle cache server updating]
          rfl
  | finish refresh answer => exact (onlyShow_endRefresh cache refresh answer).toldIds

end IssueRelay.Cache
