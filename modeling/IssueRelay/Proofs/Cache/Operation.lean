import IssueRelay.Cache.Operation
import IssueRelay.Proofs.Issue.Set

/-!
# What the operations of the issue cache leave

Each operation as the cache that it leaves and the lists of diagnostics that it publishes. A
publication leaves all but the record of whether a secret has been announced, so every operation
that publishes comes down to what it does before.
-/

namespace IssueRelay.Cache

open Transition

/-- The lists of diagnostics among effects, with their files. -/
def publications (effects : List Effect) : List (Url × List Diagnostic) :=
  effects.filterMap fun
    | .publish file diagnostics => some (file, diagnostics)
    | _ => none

@[simp] theorem publications_append (left right : List Effect) :
    publications (left ++ right) = publications left ++ publications right :=
  List.filterMap_append

/-- The refreshes whose fetches are begun among effects. -/
def begun (effects : List Effect) : List Refresh :=
  effects.filterMap fun
    | .beginFetch refresh _ _ => some refresh
    | _ => none

@[simp] theorem begun_append (left right : List Effect) :
    begun (left ++ right) = begun left ++ begun right :=
  List.filterMap_append

/-- The tickets of the calls that return among effects. -/
def returned (effects : List Effect) : List Nat :=
  effects.filterMap fun
    | .returned ticket => some ticket
    | _ => none

@[simp] theorem returned_append (left right : List Effect) :
    returned (left ++ right) = returned left ++ returned right :=
  List.filterMap_append

/-- The identifiers that reporters are told among effects. -/
def toldIds (effects : List Effect) : List IssueId :=
  effects.filterMap fun
    | .numbered id => some id
    | _ => none

@[simp] theorem toldIds_append (left right : List Effect) :
    toldIds (left ++ right) = toldIds left ++ toldIds right :=
  List.filterMap_append

/-- Effects that only show something: no fetch begins, no call returns and no reporter is told an
identifier. -/
structure OnlyShow (effects : List Effect) : Prop where
  begun : begun effects = []
  returned : returned effects = []
  toldIds : toldIds effects = []

/-- Nothing at all only shows. -/
theorem onlyShow_nil : OnlyShow [] :=
  ⟨rfl, rfl, rfl⟩

/-- Effects that only show, one after the other, only show. -/
theorem OnlyShow.append {left right : List Effect} (first : OnlyShow left)
    (second : OnlyShow right) : OnlyShow (left ++ right) where
  begun := by rw [begun_append, first.begun, second.begun, List.append_nil]
  returned := by rw [returned_append, first.returned, second.returned, List.append_nil]
  toldIds := by rw [toldIds_append, first.toldIds, second.toldIds, List.append_nil]

/-- What an editor ought to see of a file. -/
def shown (cache : Cache) (file : Url) : List Diagnostic :=
  Diagnostic.ofIssues file (cache.current file) (cache.taint.get file)

variable (cache : Cache) (file : Url)

/-! ## Publications -/

/-- Showing issues changes nothing but whether a secret has been seen. -/
theorem display_fst (issues : IssueSet) (taint : List TaintIssue) :
    (display file issues taint cache).1 =
      { cache with secretSeen := cache.secretSeen || issues.showsSecret } := by
  obtain ⟨_, _, _, _, _, _, seen, _, _⟩ := cache
  cases seen <;> cases secret : issues.showsSecret <;> simp [display, secret]

/-- What is shown is one list of one file. -/
theorem publications_display (issues : IssueSet) (taint : List TaintIssue) :
    publications (display file issues taint cache).2 =
      [(file, Diagnostic.ofIssues file issues taint)] := by
  unfold display
  split <;> rfl

/-- Showing a file does nothing else. -/
theorem onlyShow_display (issues : IssueSet) (taint : List TaintIssue) :
    OnlyShow (display file issues taint cache).2 := by
  unfold display
  split <;> exact ⟨rfl, rfl, rfl⟩

/-- A publication leaves everything as it is but for the record of the first secret. -/
theorem publish_fst : ∃ seen, (publish file cache).1 = { cache with secretSeen := seen } :=
  ⟨_, display_fst cache file (cache.current file) (cache.taint.get file)⟩

/-- A publication shows what it leaves. -/
theorem publications_publish :
    publications (publish file cache).2 = [(file, (publish file cache).1.shown file)] := by
  obtain ⟨seen, left⟩ := publish_fst cache file
  rw [left]
  exact publications_display cache file (cache.current file) (cache.taint.get file)

/-- A publication only shows. -/
theorem onlyShow_publish : OnlyShow (publish file cache).2 :=
  onlyShow_display cache file (cache.current file) (cache.taint.get file)

/-! ## Reports -/

/-- A report leaves the issue among those of the pass. -/
theorem report_fst (document : Document) (issue : Issue) :
    ∃ seen, (report document issue cache).1 =
      { addIssue document issue cache with secretSeen := seen } :=
  publish_fst (addIssue document issue cache) document.uri

/-- A report shows its file as it is after the report. -/
theorem publications_report (document : Document) (issue : Issue) :
    publications (report document issue cache).2 =
      [(document.uri, (report document issue cache).1.shown document.uri)] :=
  publications_publish (addIssue document issue cache) document.uri

/-- A tracked report leaves the issue among those of the pass, all of which have been tracked anew.
-/
theorem reportTracked_fst (document : Document) (issue : Issue) (known : List ServerIssue) :
    ∃ seen, (reportTracked document issue known cache).1 =
      { addIssue document issue cache with
        inProgress :=
          (trackIssues document.uri known (addIssue document issue cache)).inProgress
        secretSeen := seen } := by
  obtain ⟨seen, left⟩ :=
    publish_fst (trackIssues document.uri known (addIssue document issue cache)) document.uri
  refine ⟨seen, left.trans ?_⟩
  unfold trackIssues
  split <;> rfl

/-- A tracked report shows its file as it is after the tracking. -/
theorem publications_reportTracked (document : Document) (issue : Issue)
    (known : List ServerIssue) :
    publications (reportTracked document issue known cache).2 =
      [(document.uri, (reportTracked document issue known cache).1.shown document.uri)] :=
  publications_publish (trackIssues document.uri known (addIssue document issue cache))
    document.uri

/-! ## Commits -/

/-- A commit leaves the two sets as they are to be, and nothing else changed. -/
theorem commit_fst :
    ∃ seen, (commit file cache).1 =
      { cache with
        inProgress := (commitIssues file cache).inProgress
        committed := (commitIssues file cache).committed
        secretSeen := seen } := by
  obtain ⟨seen, left⟩ := publish_fst (commitIssues file cache) file
  refine ⟨seen, left.trans ?_⟩
  unfold commitIssues
  split <;> rfl

/-- A commit shows its file as it is after the commit. -/
theorem publications_commit :
    publications (commit file cache).2 = [(file, (commit file cache).1.shown file)] :=
  publications_publish (commitIssues file cache) file

/-- A commit by itself only shows; that the call returns is told apart. -/
theorem onlyShow_commit : OnlyShow (commit file cache).2 :=
  onlyShow_publish (commitIssues file cache) file

/-- The commit of a pass that has reported nothing leaves its file without issues, and shows it. -/
theorem commit_of_unreported {cache : Cache} {file : Url}
    (unreported : cache.inProgress.get? file = none) :
    commit file cache =
      ({ cache with committed := cache.committed.erase file },
        [.publish file ({ cache with committed := cache.committed.erase file }.shown file)]) := by
  have committed : commitIssues file cache =
      { cache with committed := cache.committed.erase file } := by
    rw [commitIssues, unreported]
  have current : { cache with committed := cache.committed.erase file }.current file = ∅ := by
    simp [Cache.current, unreported]
  have hidden : IssueSet.showsSecret ∅ = false := rfl
  rw [commit, andThen_apply, change_apply, committed, publish, inspect_apply, display, current,
    hidden, Bool.false_and, if_neg Bool.false_ne_true, shown, current]
  rfl

/-- A pass that succeeds while its file is refreshed waits. -/
theorem succeed_of_unfinished {file : Url} {generation : Nat} (ticket : Nat)
    (unfinished : cache.unfinished? file = some generation) :
    succeed file ticket cache =
      ({ cache with waiting := cache.waiting ++ [{ ticket, file, generation }] }, []) := by
  simp [succeed, unfinished]

/-- A pass that succeeds is committed at once if its file is not refreshed. -/
theorem succeed_of_finished {file : Url} (ticket : Nat)
    (finished : cache.unfinished? file = none) :
    succeed file ticket cache =
      ((commit file cache).1, (commit file cache).2 ++ [.returned ticket]) := by
  simp [succeed, finished, andThen_apply]

/-- A commit that has waited is like any other. -/
theorem resume_apply (pending : WaitingCommit) :
    resume pending cache =
      let waited := { cache with waiting := cache.waiting.erase pending }
      ((commit pending.file waited).1,
        (commit pending.file waited).2 ++ [.returned pending.ticket]) :=
  rfl

/-- A commit that has waited leaves what any commit leaves, and does not wait any more. -/
theorem resume_fst (pending : WaitingCommit) :
    ∃ seen, (resume pending cache).1 =
      { cache with
        waiting := cache.waiting.erase pending
        inProgress := (commitIssues pending.file cache).inProgress
        committed := (commitIssues pending.file cache).committed
        secretSeen := seen } := by
  obtain ⟨seen, left⟩ :=
    commit_fst { cache with waiting := cache.waiting.erase pending } pending.file
  refine ⟨seen, left.trans ?_⟩
  cases found : cache.inProgress.get? pending.file <;> simp [commitIssues, found]

/-! ## Clears -/

/-- A file that is cleared is gone from all that is recorded by file; a refresh of it that is under
way goes on, unregistered. -/
theorem clear_fst :
    (clear file cache).1 =
      { cache with
        registered := cache.registered.erase file
        committed := cache.committed.erase file
        inProgress := cache.inProgress.erase file
        taint := cache.taint.remove file } := by
  rw [clear, andThen_apply, display_fst]
  have hidden : IssueSet.showsSecret ∅ = false := rfl
  simp only [hidden, Bool.or_false, change_apply]

/-- Nothing is to be seen of a file that has been cleared. -/
theorem shown_clear : (clear file cache).1.shown file = Diagnostic.ofIssues file ∅ [] := by
  simp [clear_fst, shown, current]

/-- A clear shows its file, empty. -/
theorem publications_clear :
    publications (clear file cache).2 = [(file, (clear file cache).1.shown file)] := by
  rw [shown_clear]
  exact publications_display _ file ∅ []

/-! ## Refreshes -/

/-- A file that is being refreshed is not refreshed once more. -/
theorem scheduleOne_of_updating (server : Binding) {document : Document}
    (updating : cache.isUpdating document.uri = true) :
    scheduleOne server document cache = (cache, []) :=
  if_pos updating

/-- Otherwise a refresh begins under the next generation and is registered for its file. -/
theorem scheduleOne_of_idle (server : Binding) {document : Document}
    (idle : cache.isUpdating document.uri = false) :
    scheduleOne server document cache =
      let refresh := { generation := cache.nextGeneration, file := document.uri }
      ({ cache with
          registered := cache.registered.insert refresh.file refresh.generation
          running := cache.running ++ [refresh]
          nextGeneration := cache.nextGeneration + 1 },
        [.beginFetch refresh server document.relativePath]) :=
  if_neg (by simp [idle])

/-- A remark changes nothing. -/
theorem remarkTaint_fst : (remarkTaint file cache).1 = cache := by
  rw [remarkTaint, inspect_apply]
  cases cache.taint.get file <;> rfl

/-- A remark shows no file. -/
theorem publications_remarkTaint : publications (remarkTaint file cache).2 = [] := by
  rw [remarkTaint, inspect_apply]
  cases cache.taint.get file <;> rfl

/-- A remark is only for whoever watches. -/
theorem onlyShow_remarkTaint : OnlyShow (remarkTaint file cache).2 := by
  rw [remarkTaint, inspect_apply]
  cases cache.taint.get file <;> exact ⟨rfl, rfl, rfl⟩

/-- A refresh that is not registered any more only ends. -/
theorem endRefresh_of_unregistered {refresh : Refresh} (answer : Option (List TaintIssue))
    (unregistered : cache.registered.get? refresh.file ≠ some refresh.generation) :
    endRefresh refresh answer cache =
      ({ cache with running := cache.running.filter (· ≠ refresh) }, []) := by
  cases answer with
  | none => rfl
  | some issues => simp [endRefresh, applyRefresh, andThen_apply, unregistered]

/-- A registered refresh that is answered reloads the taint issues, remarks on them and shows the
file. -/
theorem applyRefresh_of_registered {refresh : Refresh} (issues : List TaintIssue)
    (registered : cache.registered.get? refresh.file = some refresh.generation) :
    applyRefresh refresh issues cache =
      let reloaded := reloadTaint refresh.file issues cache
      ((publish refresh.file reloaded).1,
        (remarkTaint refresh.file reloaded).2 ++ (publish refresh.file reloaded).2) := by
  rw [applyRefresh, inspect_apply, if_pos registered]
  simp only [andThen_apply, change_apply, List.nil_append, remarkTaint_fst]

/-- A registered refresh that is answered replaces the taint issues of its file. -/
theorem endRefresh_fst_of_registered {refresh : Refresh} (issues : List TaintIssue)
    (registered : cache.registered.get? refresh.file = some refresh.generation) :
    ∃ seen, (endRefresh refresh (some issues) cache).1 =
      { reloadTaint refresh.file issues cache with
        running := cache.running.filter (· ≠ refresh)
        secretSeen := seen } := by
  obtain ⟨seen, published⟩ := publish_fst (reloadTaint refresh.file issues cache) refresh.file
  refine ⟨seen, ?_⟩
  simp only [endRefresh, andThen_apply, applyRefresh_of_registered _ _ registered, published,
    change_apply]
  rfl

/-- A registered refresh that is answered shows its file as it is after that. -/
theorem publications_endRefresh_of_registered {refresh : Refresh} (issues : List TaintIssue)
    (registered : cache.registered.get? refresh.file = some refresh.generation) :
    publications (endRefresh refresh (some issues) cache).2 =
      [(refresh.file, (endRefresh refresh (some issues) cache).1.shown refresh.file)] := by
  simp only [endRefresh, andThen_apply, applyRefresh_of_registered _ _ registered, change_apply,
    List.append_nil, publications_append, publications_remarkTaint, publications_publish,
    List.nil_append]
  rfl

/-- A refresh that ends shows its file, or does nothing outside. -/
theorem onlyShow_endRefresh (refresh : Refresh) (answer : Option (List TaintIssue)) :
    OnlyShow (endRefresh refresh answer cache).2 := by
  by_cases registered : cache.registered.get? refresh.file = some refresh.generation
  · cases answer with
    | none => exact onlyShow_nil
    | some issues =>
        simp only [endRefresh, andThen_apply, applyRefresh_of_registered _ _ registered,
          change_apply, List.append_nil]
        exact (onlyShow_remarkTaint _ _).append (onlyShow_publish _ _)
  · rw [endRefresh_of_unregistered cache answer registered]
    exact onlyShow_nil

/-- A refresh that ends changes nothing but the taint issues. -/
theorem endRefresh_fst (refresh : Refresh) (answer : Option (List TaintIssue)) :
    ∃ taint seen, (endRefresh refresh answer cache).1 =
      { cache with
        taint
        running := cache.running.filter (· ≠ refresh)
        secretSeen := seen } := by
  by_cases registered : cache.registered.get? refresh.file = some refresh.generation
  · cases answer with
    | none => exact ⟨cache.taint, cache.secretSeen, rfl⟩
    | some issues =>
        obtain ⟨seen, left⟩ := endRefresh_fst_of_registered cache issues registered
        exact ⟨_, seen, left⟩
  · rw [endRefresh_of_unregistered cache answer registered]
    exact ⟨cache.taint, cache.secretSeen, rfl⟩

end IssueRelay.Cache
