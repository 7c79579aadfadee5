import IssueRelay.Proofs.Cache.DoubleBuffer
import IssueRelay.Proofs.Cache.Refresh

/-!
# What the editor sees

Every action shows an editor at most one file, and it shows that file as the action leaves it
(`IssueRelay.Cache.Chronicle.publications_act`). What was shown last of a file is therefore what a
reader sees of it, unless reports have been dropped since, which no editor is told
(`IssueRelay.Cache.view_coherent`).
-/

namespace IssueRelay.Cache

open Transition

namespace Chronicle

variable {cache : Cache}

/-- The file that an action shows an editor: reports, commits and clears show theirs, and so do
answers to refreshes that have begun since their file was cleared. -/
def shownBy? (past : Chronicle cache) : Action → Option Url
  | .report document _ => some document.uri
  | .reportTracked document _ _ => some document.uri
  | .succeed file _ => if (cache.unfinished? file).isNone then some file else none
  | .resume pending => some pending.file
  | .clear file => some file
  | .finish refresh (some _) =>
    if refresh ∈ past.begunSinceClear refresh.file then some refresh.file else none
  | _ => none

/-- The list of diagnostics that was published last for a file. -/
def lastPublished? (file : Url) (past : Chronicle cache) : Option (List Diagnostic) :=
  ((publications past.effects).reverse.find? (·.1 = file)).map Prod.snd

/-- Whether reports on a file have been dropped since the last publication for it. -/
def dropsShown (file : Url) : {cache : Cache} → Chronicle cache → Bool
  | _, .beginning => false
  | _, @next cache past action _ =>
    if (publications (act action cache).2).any (·.1 = file) then false
    else past.dropsShown file || action.drops file && !(past.uncommitted file).isEmpty

/-- An action publishes one list of diagnostics for the file that it shows, which says what the
action leaves of it; an action that shows no file publishes none. -/
theorem publications_act (past : Chronicle cache) (action : Action)
    (possible : action.Possible cache) :
    publications (act action cache).2 =
      (past.shownBy? action).toList.map fun file => (file, (act action cache).1.shown file) := by
  cases action with
  | start | fail | seedSecretSeen => rfl
  | report document issue => exact publications_report cache document issue
  | reportTracked document issue known =>
      exact publications_reportTracked cache document issue known
  | succeed file ticket =>
      rw [act, shownBy?]
      cases unfinished : cache.unfinished? file with
      | some generation =>
          rw [succeed_of_unfinished cache ticket unfinished]
          rfl
      | none =>
          rw [succeed_of_finished cache ticket unfinished, publications_append,
            publications_commit]
          rfl
  | resume pending =>
      rw [act, resume_apply, publications_append, publications_commit]
      rfl
  | clear file => exact publications_clear cache file
  | schedule server document =>
      cases updating : cache.isUpdating document.uri with
      | true =>
          rw [act, scheduleOne_of_updating cache server updating]
          rfl
      | false =>
          rw [act, scheduleOne_of_idle cache server updating]
          rfl
  | finish refresh answer =>
      cases answer with
      | none => rfl
      | some issues =>
          rw [act, shownBy?]
          by_cases counts : refresh ∈ past.begunSinceClear refresh.file
          · have registered := (past.registered_iff possible).mpr counts
            rw [if_pos counts, publications_endRefresh_of_registered cache issues registered]
            rfl
          · have unregistered := mt (past.registered_iff possible).mp counts
            rw [if_neg counts, endRefresh_of_unregistered cache (some issues) unregistered]
            rfl

variable {file : Url} {action : Action} {possible : action.Possible cache}

/-- What was published last is what the last action that showed the file has left of it. -/
theorem lastPublished?_next (past : Chronicle cache) :
    (past.next action possible).lastPublished? file =
      if past.shownBy? action = some file then some ((act action cache).1.shown file)
      else past.lastPublished? file := by
  rw [lastPublished?, effects, publications_append, past.publications_act action possible]
  cases past.shownBy? action with
  | none => simp [lastPublished?]
  | some shown =>
      by_cases same : shown = file
      · simp [same]
      · simp [same, lastPublished?]

/-- Reports are dropped unseen when a pass starts or fails after some, until the file is shown
again. -/
theorem dropsShown_next (past : Chronicle cache) :
    (past.next action possible).dropsShown file =
      if past.shownBy? action = some file then false
      else past.dropsShown file || action.drops file && !(past.uncommitted file).isEmpty := by
  rw [dropsShown, past.publications_act action possible]
  cases past.shownBy? action <;> simp

/-- A commit shows its file. -/
theorem shownBy?_of_commits (past : Chronicle cache) (commits : action.commits cache file = true) :
    past.shownBy? action = some file := by
  cases action with
  | succeed succeeded ticket =>
      obtain ⟨same, finished⟩ := Bool.and_eq_true_iff.mp commits
      obtain rfl := of_decide_eq_true same
      exact if_pos finished
  | resume pending => exact congrArg some (of_decide_eq_true commits)
  | _ => cases commits

/-- A clear shows its file. -/
theorem shownBy?_of_clears (past : Chronicle cache) (clears : action.clears file = true) :
    past.shownBy? action = some file := by
  cases action with
  | clear cleared => exact congrArg some (of_decide_eq_true clears)
  | _ => cases clears

/-- A report shows its file. -/
theorem shownBy?_of_reported (past : Chronicle cache) {report : Report}
    (reported : action.reported? cache = some report) :
    past.shownBy? action = some report.file := by
  cases action with
  | report document issue | reportTracked document issue known =>
      cases reported
      rfl
  | _ => cases reported

/-- An action that does not show a file leaves what a reader sees of it, unless it drops
reports on it. -/
theorem current_act_of_hidden (past : Chronicle cache) (action : Action)
    (hidden : past.shownBy? action ≠ some file)
    (keeps : action.drops file = false ∨ past.uncommitted file = []) :
    (act action cache).1.current file = cache.current file := by
  cases bufferChange cache file action with
  | commit commits => exact (hidden (past.shownBy?_of_commits commits)).elim
  | clear clears => exact (hidden (past.shownBy?_of_clears clears)).elim
  | drop drops commits clears inProgress committed =>
      have none : past.uncommitted file = [] := keeps.resolve_left (by simp [drops])
      have before : cache.inProgress.get? file = Option.none := by
        rcases (past.refines file).inProgress with ⟨empty, _⟩ | ⟨_, _, some, _⟩
        · exact empty
        · exact (some none).elim
      rw [current, current, inProgress, committed, before]
  | report report reported same => exact (hidden (same ▸ past.shownBy?_of_reported reported)).elim
  | none continues elsewhere inProgress committed => rw [current, current, inProgress, committed]

/-- An action that does not show a file leaves its taint issues. -/
theorem taint_act_of_hidden (past : Chronicle cache) (action : Action)
    (possible : action.Possible cache) (hidden : past.shownBy? action ≠ some file) :
    (act action cache).1.taint.get file = cache.taint.get file := by
  cases refreshChange cache action with
  | start refresh begins fresh idle silent clears left => rw [left]
  | finish refresh answer same begins clears registered running taint =>
      subst same
      rw [taint]
      apply get_taintAfter
      rintro issues rfl found rfl
      exact hidden (if_pos ((past.registered_iff possible).mp found))
  | clear cleared clears begins silent registered running taint =>
      have different : file ≠ cleared := by
        rintro rfl
        exact hidden (past.shownBy?_of_clears ((clears file).trans (decide_eq_true rfl)))
      rw [taint, TaintStore.get_remove_of_ne _ different]
  | none begins silent clears registered running taint => rw [taint]

/-- What was published last for a file is what a reader sees of it, unless reports on it have been
dropped since; a file for which nothing was published has no issues. -/
theorem lastPublished?_eq_shown (past : Chronicle cache) (file : Url)
    (kept : past.dropsShown file = false) :
    past.lastPublished? file = some (cache.shown file) ∨
      past.lastPublished? file = none ∧ cache.current file = ∅ ∧ cache.taint.get file = [] := by
  induction past with
  | beginning => exact .inr ⟨rfl, rfl, rfl⟩
  | @next cache past action possible ih =>
      rw [dropsShown_next] at kept
      rw [lastPublished?_next]
      by_cases shows : past.shownBy? action = some file
      · exact .inl (if_pos shows)
      · -- What is not shown changes nothing that is seen, unless it drops reports.
        rw [if_neg shows, Bool.or_eq_false_iff, Bool.and_eq_false_iff,
          Bool.not_eq_eq_eq_not, Bool.not_false, List.isEmpty_iff] at kept
        have current := past.current_act_of_hidden action shows kept.2
        have taint := past.taint_act_of_hidden action possible shows
        rw [if_neg shows, shown, current, taint]
        exact ih kept.1

end Chronicle

/-- **Coherence.** Every action publishes one list for the file that it shows, as it leaves it, and
none for any other; and the last list published for a file is what a reader sees of it, unless
reports on it have been dropped since. -/
theorem view_coherent {cache : Cache} (past : Chronicle cache) :
    (∀ action, action.Possible cache →
      publications (act action cache).2 =
        (past.shownBy? action).toList.map fun file =>
          (file, (act action cache).1.shown file)) ∧
      ∀ file, past.dropsShown file = false →
        past.lastPublished? file = some (cache.shown file) ∨
          past.lastPublished? file = none ∧ cache.count file = 0 ∧ cache.taint.get file = [] := by
  refine ⟨past.publications_act, fun file kept => ?_⟩
  rcases past.lastPublished?_eq_shown file kept with published | ⟨unpublished, empty, untainted⟩
  · exact .inl published
  · refine .inr ⟨unpublished, ?_, untainted⟩
    rw [count, empty]
    rfl

end IssueRelay.Cache
