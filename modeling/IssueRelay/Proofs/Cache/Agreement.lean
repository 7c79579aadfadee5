import IssueRelay.Proofs.Cache.Action
import IssueRelay.Proofs.Transition

/-!
# Two caches that agree on a file

Two caches may differ in what they hold of the issues of other files, and in whether a secret has
been announced. Whatever happens to both, they then agree on the file still and bring about the same
but for what is shown of other files, even if a server is said to know different issues of those
(`IssueRelay.Cache.concur_reportTracked`).
-/

namespace IssueRelay.Cache

open Transition

/-- Two caches differ only in the issues of other files, and in whether a secret was announced. -/
structure Agree (file : Url) (left right : Cache) : Prop where
  inProgress : left.inProgress.get? file = right.inProgress.get? file
  committed : left.committed.get? file = right.committed.get? file
  taint : left.taint = right.taint
  registered : left.registered = right.registered
  running : left.running = right.running
  waiting : left.waiting = right.waiting
  nextId : left.nextId = right.nextId
  nextGeneration : left.nextGeneration = right.nextGeneration

/-- Whether an effect is the same for caches that agree on a file: not if it shows another file, or
may be about a secret in one. -/
def Effect.concerns (file : Url) : Effect → Bool
  | .publish shown _ => shown = file
  | .announceSecret | .remark _ => false
  | .beginFetch _ _ _ | .numbered _ | .returned _ => true

/-- Whether two transitions do the same to caches that agree on a file. -/
abbrev Concur (file : Url) (step other : Transition Cache Effect) : Prop :=
  Matches (Agree file) (Effect.concerns file) step other

variable {file : Url} {left right : Cache}

/-- A cache agrees with itself. -/
theorem Agree.refl (file : Url) (cache : Cache) : Agree file cache cache :=
  ⟨rfl, rfl, rfl, rfl, rfl, rfl, rfl, rfl⟩

/-- Caches that agree show the same of the file. -/
theorem Agree.current (agree : Agree file left right) : left.current file = right.current file := by
  unfold Cache.current
  rw [agree.inProgress, agree.committed]

/-- Caches that agree have the same refreshes under way. -/
theorem Agree.isRunning (agree : Agree file left right) : left.isRunning = right.isRunning := by
  funext generation
  rw [Cache.isRunning, Cache.isRunning, agree.running]

/-- Caches that agree wait for the same refresh of every file. -/
theorem Agree.unfinished? (agree : Agree file left right) (other : Url) :
    left.unfinished? other = right.unfinished? other := by
  rw [Cache.unfinished?, Cache.unfinished?, agree.registered, agree.isRunning]

/-- Caches that agree refresh the same files. -/
theorem Agree.isUpdating (agree : Agree file left right) (other : Url) :
    left.isUpdating other = right.isUpdating other := by
  rw [Cache.isUpdating, Cache.isUpdating, agree.unfinished? other]

/-- Caches that agree have the same commits waiting for every refresh. -/
theorem Agree.waitingFor (agree : Agree file left right) : left.waitingFor = right.waitingFor := by
  funext generation
  rw [Cache.waitingFor, Cache.waitingFor, agree.waiting]

/-- What can happen to one of two caches that agree can happen to the other. -/
theorem Agree.possible_iff (agree : Agree file left right) (action : Action) :
    action.Possible left ↔ action.Possible right := by
  cases action with
  | resume pending => rw [Action.Possible, Action.Possible, agree.waiting, agree.isRunning]
  | finish refresh answer => rw [Action.Possible, Action.Possible, agree.running]
  | _ => exact Iff.rfl

/-! ## What is shown -/

/-- Showing something concurs if it is the same wherever it is of the file itself. -/
theorem concur_display (shown : Url) {issues others : IssueSet} {taint taintThere : List TaintIssue}
    (alike : shown = file → issues = others ∧ taint = taintThere) :
    Concur file (display shown issues taint) (display shown others taintThere) := by
  have told : ∀ issues taint cache, (display shown issues taint cache).2.filter
      (Effect.concerns file) =
        [Effect.publish shown (Diagnostic.ofIssues shown issues taint)].filter
          (Effect.concerns file) := by
    intro issues taint cache
    unfold display
    split <;> rfl
  intro left right agree
  rw [display_fst, display_fst, told, told]
  refine ⟨{ agree with }, ?_⟩
  by_cases mine : shown = file
  · rw [(alike mine).1, (alike mine).2]
  · simp [Effect.concerns, mine]

/-- Showing what is known of a file concurs. -/
theorem concur_publish (shown : Url) : Concur file (publish shown) (publish shown) := by
  refine matches_inspect fun left right agree => concur_display shown ?_
  rintro rfl
  exact ⟨agree.current, by rw [agree.taint]⟩

/-- Forgetting a file concurs. -/
theorem concur_clear (cleared : Url) : Concur file (clear cleared) (clear cleared) := by
  refine (matches_change fun left right agree => ?_).andThen
    (concur_display cleared fun _ => ⟨rfl, rfl⟩)
  exact { agree with
    inProgress := Dictionary.get?_erase_congr agree.inProgress cleared
    committed := Dictionary.get?_erase_congr agree.committed cleared
    taint := congrArg (·.remove cleared) agree.taint
    registered := congrArg (·.erase cleared) agree.registered }

/-! ## What passes report -/

/-- Dropping what a pass has reported concurs. -/
theorem concur_dropPass (dropped : Url) :
    Concur file (change (dropPass dropped)) (change (dropPass dropped)) :=
  matches_change fun _ _ agree =>
    { agree with inProgress := Dictionary.get?_erase_congr agree.inProgress dropped }

/-- Putting a report under the next identifier concurs, for both caches have the same next one. -/
theorem concur_addIssue (document : Document) (issue : Issue) :
    Concur file (change (addIssue document issue)) (change (addIssue document issue)) := by
  refine matches_change fun left right agree => { agree with
    inProgress := Dictionary.get?_insert_congr agree.inProgress ?_
    nextId := congrArg IssueId.next agree.nextId }
  rintro rfl
  rw [agree.inProgress, agree.nextId]

/-- Tracking concurs if the server issues are the same wherever they are of the file itself. -/
theorem concur_trackIssues {tracked : Url} {known knownThere : List ServerIssue}
    (alike : tracked = file → known = knownThere) :
    Concur file (change (trackIssues tracked known)) (change (trackIssues tracked knownThere)) := by
  refine matches_change fun left right agree => ?_
  by_cases mine : tracked = file
  · subst mine
    rw [← alike rfl]
    unfold trackIssues
    rw [← agree.inProgress]
    split
    · exact { agree with inProgress := Dictionary.get?_insert_congr agree.inProgress fun _ => rfl }
    · exact agree
  · have kept : ∀ known cache,
        (trackIssues tracked known cache).inProgress.get? file = cache.inProgress.get? file :=
      fun known cache => inProgress_trackIssues_of_ne cache known (Ne.symm mine)
    have rest : ∀ known cache, trackIssues tracked known cache =
        { cache with inProgress := (trackIssues tracked known cache).inProgress } := by
      intro known cache
      unfold trackIssues
      split <;> rfl
    rw [rest, rest knownThere]
    exact { agree with
      inProgress := by rw [kept, kept, agree.inProgress] }

/-- Telling the next identifier concurs. -/
theorem concur_announceId : Concur file announceId announceId :=
  matches_inspect fun _ _ agree => matches_emit (by rw [agree.nextId])

/-- A report concurs. -/
theorem concur_report (document : Document) (issue : Issue) :
    Concur file (report document issue) (report document issue) :=
  concur_announceId.andThen ((concur_addIssue document issue).andThen (concur_publish _))

/-- A report matches another although a server is said to know other issues, unless these are of
the file that the caches agree on. -/
theorem concur_reportTracked (document : Document) (issue : Issue)
    {known knownThere : List ServerIssue} (alike : document.uri = file → known = knownThere) :
    Concur file (reportTracked document issue known)
      (reportTracked document issue knownThere) :=
  concur_announceId.andThen <| (concur_addIssue document issue).andThen <|
    (concur_trackIssues alike).andThen (concur_publish _)

/-! ## Commits -/

/-- A commit concurs. -/
theorem concur_commit (done : Url) : Concur file (commit done) (commit done) := by
  refine (matches_change fun left right agree => ?_).andThen (concur_publish done)
  have rest : ∀ cache, commitIssues done cache =
      { cache with
        inProgress := (commitIssues done cache).inProgress
        committed := (commitIssues done cache).committed } := by
    intro cache
    unfold commitIssues
    split <;> rfl
  rw [rest left, rest right]
  by_cases mine : file = done
  · subst mine
    exact { agree with
      inProgress := by rw [inProgress_commitIssues_self, inProgress_commitIssues_self]
      committed := by
        rw [committed_commitIssues_self, committed_commitIssues_self, agree.inProgress] }
  · exact { agree with
      inProgress := by
        rw [inProgress_commitIssues_of_ne _ mine, inProgress_commitIssues_of_ne _ mine,
          agree.inProgress]
      committed := by
        rw [committed_commitIssues_of_ne _ mine, committed_commitIssues_of_ne _ mine,
          agree.committed] }

/-- A success concurs: it waits in both caches or is committed in both. -/
theorem concur_succeed (done : Url) (ticket : Nat) :
    Concur file (succeed done ticket) (succeed done ticket) := by
  refine matches_inspect fun left right agree => ?_
  rw [agree.unfinished? done]
  split
  · exact matches_change fun _ _ agree =>
      { agree with waiting := congrArg (· ++ _) agree.waiting }
  · exact (concur_commit done).andThen (matches_emit rfl)

/-- A commit that has waited concurs. -/
theorem concur_resume (pending : WaitingCommit) :
    Concur file (resume pending) (resume pending) :=
  (matches_change fun _ _ agree =>
    { agree with waiting := congrArg (·.erase pending) agree.waiting }).andThen <|
  (concur_commit pending.file).andThen (matches_emit rfl)

/-! ## Refreshes -/

/-- Scheduling a refresh concurs: it begins in both caches or in neither. -/
theorem concur_scheduleOne (server : Binding) (document : Document) :
    Concur file (scheduleOne server document) (scheduleOne server document) := by
  intro left right agree
  have updating := agree.isUpdating document.uri
  cases busy : right.isUpdating document.uri with
  | true =>
      rw [busy] at updating
      rw [scheduleOne_of_updating _ _ busy, scheduleOne_of_updating _ _ updating]
      exact ⟨agree, rfl⟩
  | false =>
      rw [busy] at updating
      rw [scheduleOne_of_idle _ _ busy, scheduleOne_of_idle _ _ updating, agree.nextGeneration]
      exact ⟨{ agree with
        registered := congrArg (·.insert document.uri right.nextGeneration) agree.registered
        running := congrArg (· ++ _) agree.running
        nextGeneration := rfl }, rfl⟩

/-- Taking over the answer of a refresh concurs. -/
theorem concur_applyRefresh (refresh : Refresh) (issues : List TaintIssue) :
    Concur file (applyRefresh refresh issues) (applyRefresh refresh issues) := by
  refine matches_inspect fun left right agree => ?_
  rw [agree.registered]
  split
  · refine (matches_change fun _ _ agree => ?_).andThen (Matches.andThen ?_ (concur_publish _))
    · exact { agree with taint := congrArg (·.reload refresh.file issues) agree.taint }
    · refine matches_inspect fun left right agree => ?_
      rw [agree.taint]
      split
      · exact matches_idle
      · exact matches_emit rfl
  · exact matches_idle

/-- The end of a refresh concurs. -/
theorem concur_endRefresh (refresh : Refresh) (answer : Option (List TaintIssue)) :
    Concur file (endRefresh refresh answer) (endRefresh refresh answer) := by
  refine Matches.andThen ?_ (matches_change fun _ _ agree =>
    { agree with running := congrArg (·.filter (· ≠ refresh)) agree.running })
  cases answer with
  | some issues => exact concur_applyRefresh refresh issues
  | none => exact matches_idle

end IssueRelay.Cache
