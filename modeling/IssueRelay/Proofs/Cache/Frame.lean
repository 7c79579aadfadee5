import IssueRelay.Proofs.Cache.OverlappingPasses

/-!
# Files that an action is not about

Every action is about one file at most. It leaves the issues of all other files, their refreshes and
the commits that wait for them, and shows none of them (`IssueRelay.Cache.untouched_act`,
`IssueRelay.Cache.Chronicle.not_published_of_elsewhere`).
-/

namespace IssueRelay.Cache

variable {cache : Cache} {file : Url}

namespace Action

/-- The file that an action is about. -/
def subject? : Action → Option Url
  | .schedule _ document => some document.uri
  | .finish refresh _ => some refresh.file
  | action => action.file?

/-- What ends a pass over a file is about this file. -/
theorem subject?_of_endsPass {action : Action} (ends : action.endsPass cache file = true) :
    action.subject? = some file := by
  cases action <;> simp_all [endsPass, commits, clears, drops, subject?, file?]

/-- A report is about its file. -/
theorem subject?_of_reported {action : Action} {report : Report}
    (reported : action.reported? cache = some report) :
    action.subject? = some report.file := by
  cases action with
  | report document issue | reportTracked document issue known =>
      cases reported
      rfl
  | _ => cases reported

/-- What begins a refresh is about the file that is refreshed. -/
theorem subject?_of_begun {action : Action} {refresh : Refresh}
    (begins : refresh ∈ begun (act action cache).2) : action.subject? = some refresh.file := by
  rw [begun_act] at begins
  cases action with
  | schedule server document =>
      dsimp only at begins
      split at begins
      · cases begins
      · rw [List.mem_singleton.mp begins]
        rfl
  | _ => cases begins

end Action

/-- What shows a file is about this file. -/
theorem Chronicle.subject?_of_shownBy (past : Chronicle cache) {action : Action}
    (shows : past.shownBy? action = some file) : action.subject? = some file := by
  cases action with
  | succeed succeeded ticket =>
      rw [shownBy?] at shows
      split at shows
      · exact shows
      · cases shows
  | finish refresh answer =>
      cases answer with
      | none => cases shows
      | some issues =>
          rw [shownBy?] at shows
          split at shows
          · exact shows
          · cases shows
  | start | fail | schedule | seedSecretSeen => cases shows
  | _ => exact shows

/-- Nothing has happened to a file. -/
structure Untouched (before after : Cache) (file : Url) : Prop where
  inProgress : after.inProgress.get? file = before.inProgress.get? file
  committed : after.committed.get? file = before.committed.get? file
  taint : after.taint.get file = before.taint.get file
  registered : after.registered.get? file = before.registered.get? file
  waiting : after.waiting.any (·.file = file) = before.waiting.any (·.file = file)

/-- What is not changed at all is untouched. -/
theorem Untouched.refl (cache : Cache) (file : Url) : Untouched cache cache file :=
  ⟨rfl, rfl, rfl, rfl, rfl⟩

/-- If a file is the same after as before, it was the same before as after. -/
theorem Untouched.symm {before after : Cache} (untouched : Untouched before after file) :
    Untouched after before file where
  inProgress := untouched.inProgress.symm
  committed := untouched.committed.symm
  taint := untouched.taint.symm
  registered := untouched.registered.symm
  waiting := untouched.waiting.symm

section Elsewhere

variable {action : Action} (elsewhere : action.subject? ≠ some file)

include elsewhere

/-- The two sets of a file are left as they are. -/
theorem buffers_act_of_elsewhere :
    (act action cache).1.inProgress.get? file = cache.inProgress.get? file ∧
      (act action cache).1.committed.get? file = cache.committed.get? file := by
  have continues : action.endsPass cache file = false :=
    Bool.eq_false_iff.mpr fun ends => elsewhere (Action.subject?_of_endsPass ends)
  obtain ⟨uncommitted, uncleared, kept⟩ := Action.endsPass_eq_false_iff.mp continues
  cases bufferChange cache file action with
  | commit commits => rw [uncommitted] at commits; cases commits
  | clear clears => rw [uncleared] at clears; cases clears
  | drop drops => rw [kept] at drops; cases drops
  | report report reported same =>
      rw [← same] at elsewhere
      exact (elsewhere (Action.subject?_of_reported reported)).elim
  | none continues silent inProgress committed => exact ⟨inProgress, committed⟩

/-- The taint issues of a file and its registered refresh are left as they are. -/
theorem refreshes_act_of_elsewhere :
    (act action cache).1.taint.get file = cache.taint.get file ∧
      (act action cache).1.registered.get? file = cache.registered.get? file := by
  cases refreshChange cache action with
  | start refresh begins fresh idle silent clears left =>
      have subject : action.subject? = some refresh.file :=
        Action.subject?_of_begun (by rw [begins]; exact List.mem_singleton_self refresh)
      have different : file ≠ refresh.file := fun same => elsewhere (same ▸ subject)
      rw [left]
      exact ⟨rfl, Dictionary.get?_insert_of_ne _ _ different⟩
  | finish refresh answer same begins clears registered running taint nextGeneration =>
      subst same
      have different : file ≠ refresh.file := fun same => elsewhere (same ▸ rfl)
      rw [registered, taint]
      exact ⟨get_taintAfter fun _ _ _ => different, rfl⟩
  | clear cleared clears begins silent registered running taint nextGeneration =>
      have different : file ≠ cleared := by
        rintro rfl
        have ends : action.endsPass cache file = true := by simp [Action.endsPass, clears]
        exact elsewhere (Action.subject?_of_endsPass ends)
      rw [registered, taint]
      exact ⟨TaintStore.get_remove_of_ne _ different, Dictionary.get?_erase_of_ne _ different⟩
  | none begins silent clears registered running taint nextGeneration =>
      rw [registered, taint]
      exact ⟨rfl, rfl⟩

/-- The refreshes of a file that are under way are left as they are. -/
theorem runningOf_act_of_elsewhere :
    (act action cache).1.running.filter (·.file = file) =
      cache.running.filter (·.file = file) := by
  cases refreshChange cache action with
  | start refresh begins fresh idle silent clears left =>
      have subject : action.subject? = some refresh.file :=
        Action.subject?_of_begun (by rw [begins]; exact List.mem_singleton_self refresh)
      have different : refresh.file ≠ file := fun same => elsewhere (same ▸ subject)
      rw [left, List.filter_append]
      simp [different]
  | finish refresh answer same begins clears registered running taint nextGeneration =>
      subst same
      have different : refresh.file ≠ file := fun same => elsewhere (congrArg some same)
      rw [running, List.filter_filter]
      apply List.filter_congr
      intro other _
      by_cases same : other = refresh
      · simp [same, different]
      · simp [same]
  | clear cleared clears begins silent registered running taint nextGeneration => rw [running]
  | none begins silent clears registered running taint nextGeneration => rw [running]

/-- The commits of a file that wait are left as they are. -/
theorem waitingOf_act_of_elsewhere :
    (act action cache).1.waiting.filter (·.file = file) =
      cache.waiting.filter (·.file = file) := by
  rw [waiting_act]
  cases action with
  | succeed succeeded ticket =>
      have different : succeeded ≠ file := fun same => elsewhere (congrArg some same)
      rw [List.filter_append]
      cases cache.unfinished? succeeded <;> simp [different]
  | resume pending =>
      have different : pending.file ≠ file := fun same => elsewhere (congrArg some same)
      have absent : pending ∉ cache.waiting.filter (·.file = file) :=
        fun member => different (of_decide_eq_true (List.mem_filter.mp member).2)
      dsimp only
      rw [← List.erase_filter, List.erase_of_not_mem absent]
  | _ => rfl

/-- Whether a commit of a file waits is left as it is. -/
theorem waiting_act_of_elsewhere :
    (act action cache).1.waiting.any (·.file = file) = cache.waiting.any (·.file = file) := by
  have same : ((act action cache).1.waiting.filter (·.file = file)).any (·.file = file) =
      (cache.waiting.filter (·.file = file)).any (·.file = file) := by
    rw [waitingOf_act_of_elsewhere elsewhere]
  simpa only [List.any_filter, Bool.and_self] using same

/-- An action on something else leaves a file untouched. -/
theorem untouched_act (cache : Cache) : Untouched cache (act action cache).1 file where
  inProgress := (buffers_act_of_elsewhere elsewhere).1
  committed := (buffers_act_of_elsewhere elsewhere).2
  taint := (refreshes_act_of_elsewhere elsewhere).1
  registered := (refreshes_act_of_elsewhere elsewhere).2
  waiting := waiting_act_of_elsewhere elsewhere

end Elsewhere

/-- An action on something else does not show a file. -/
theorem Chronicle.not_published_of_elsewhere (past : Chronicle cache) {action : Action}
    (possible : action.Possible cache) (elsewhere : action.subject? ≠ some file) :
    ∀ publication ∈ publications (act action cache).2, publication.1 ≠ file := by
  intro publication published same
  rw [past.publications_act action possible] at published
  obtain ⟨shown, shows, rfl⟩ := List.mem_map.mp published
  rw [← same] at elsewhere
  exact elsewhere (past.subject?_of_shownBy (Option.mem_toList.mp shows))

end IssueRelay.Cache
