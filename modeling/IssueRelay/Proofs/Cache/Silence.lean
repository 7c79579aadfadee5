import IssueRelay.Proofs.Cache.OverlappingPasses
import IssueRelay.Proofs.Diagnostic.OfIssues

/-!
# Files that have been cleared

A file that is cleared falls silent. What was under way goes on: refreshes end, and commits that
have waited are made. Still there is nothing to read of the file and nothing to show until it is
reported on, or until a refresh is answered that has begun since
(`IssueRelay.Cache.nothing_seen_in_silence`).
-/

namespace IssueRelay.Cache

namespace Chronicle

variable {cache : Cache} {file : Url}

/-- Whether an action ends the silence of a file: a report on it does, and so does an answer to a
refresh that has begun since the file was last cleared. -/
def breaksSilence (file : Url) (past : Chronicle cache) : Action → Bool
  | .report document _ => document.uri = file
  | .reportTracked document _ _ => document.uri = file
  | .finish refresh (some _) => refresh ∈ past.begunSinceClear file
  | _ => false

/-- Whether a file has been cleared and nothing has ended its silence. -/
def silent (file : Url) : {cache : Cache} → Chronicle cache → Bool
  | _, .beginning => false
  | _, .next past action _ =>
    action.clears file || past.silent file && !past.breaksSilence file action

/-- The lists of diagnostics published for a file since it has fallen silent, that of the clear
included. -/
def shownInSilence (file : Url) : {cache : Cache} → Chronicle cache → List (List Diagnostic)
  | _, .beginning => []
  | _, @next cache past action possible =>
    if (past.next action possible).silent file then
      past.shownInSilence file ++
        ((publications (act action cache).2).filter (·.1 = file)).map Prod.snd
    else []

/-- A file that is silent after anything but a clear was silent before, and nothing has broken its
silence. -/
theorem silent_of_next {past : Chronicle cache} {action : Action}
    {possible : action.Possible cache} (clears : action.clears file = false)
    (silent : (past.next action possible).silent file = true) :
    past.silent file = true ∧ past.breaksSilence file action = false := by
  rw [Chronicle.silent, clears, Bool.false_or, Bool.and_eq_true_iff] at silent
  exact ⟨silent.1, (Bool.not_eq_eq_eq_not ..).mp silent.2⟩

/-- A report breaks the silence of its file. -/
theorem breaksSilence_of_reported (past : Chronicle cache) {action : Action}
    {report : Report} (reported : action.reported? cache = some report) :
    past.breaksSilence report.file action = true := by
  cases action with
  | report document issue | reportTracked document issue known =>
      have shown := past.shownBy?_of_reported reported
      exact decide_eq_true (Option.some.inj shown)
  | _ => cases reported

/-- A silent file has no issues, neither committed nor in progress. Commits that are late find
nothing to take over. -/
theorem buffers_of_silent (past : Chronicle cache) (silent : past.silent file = true) :
    cache.inProgress.get? file = none ∧ cache.committed.get? file = none := by
  induction past with
  | beginning => cases silent
  | @next cache past action possible ih =>
      cases bufferChange cache file action with
      | clear clears inProgress committed => exact ⟨inProgress, committed⟩
      | commit commits clears inProgress committed =>
          obtain ⟨earlier, _⟩ := silent_of_next clears silent
          exact ⟨inProgress, committed.trans (ih earlier).1⟩
      | drop drops commits clears inProgress committed =>
          obtain ⟨earlier, _⟩ := silent_of_next clears silent
          exact ⟨inProgress, committed.trans (ih earlier).2⟩
      | report report reported same continues committed =>
          obtain ⟨_, clears, _⟩ := Action.endsPass_eq_false_iff.mp continues
          obtain ⟨_, unbroken⟩ := silent_of_next clears silent
          have breaks := past.breaksSilence_of_reported reported
          rw [same, unbroken] at breaks
          cases breaks
      | none continues elsewhere inProgress committed =>
          obtain ⟨_, clears, _⟩ := Action.endsPass_eq_false_iff.mp continues
          obtain ⟨earlier, _⟩ := silent_of_next clears silent
          exact ⟨inProgress.trans (ih earlier).1, committed.trans (ih earlier).2⟩

/-- A silent file has no taint issues. Refreshes that began before it was cleared are not
registered any more, so their answers do not count. -/
theorem taint_of_silent (past : Chronicle cache) (silent : past.silent file = true) :
    cache.taint.get file = [] := by
  induction past with
  | beginning => cases silent
  | @next cache past action possible ih =>
      cases refreshChange cache action with
      | start refresh begins fresh idle unanswered clears left =>
          obtain ⟨earlier, _⟩ := silent_of_next (clears file) silent
          rw [left]
          exact ih earlier
      | finish refresh answer same begins clears registered running taint nextGeneration =>
          subst same
          obtain ⟨earlier, unbroken⟩ := silent_of_next (clears file) silent
          -- Only a refresh that began before the clear can end here, and it is not registered.
          have left : (cache.taintAfter refresh answer).get file = cache.taint.get file := by
            apply get_taintAfter
            rintro issues rfl found rfl
            exact of_decide_eq_false unbroken ((past.registered_iff possible).mp found)
          rw [taint, left]
          exact ih earlier
      | clear cleared clears begins unanswered registered running taint nextGeneration =>
          rw [taint]
          by_cases same : file = cleared
          · rw [same, TaintStore.get_remove_self]
          · have elsewhere : action.clears file = false := by
              rw [clears]
              exact decide_eq_false (Ne.symm same)
            obtain ⟨earlier, _⟩ := silent_of_next elsewhere silent
            rw [TaintStore.get_remove_of_ne _ same]
            exact ih earlier
      | none begins unanswered clears registered running taint nextGeneration =>
          obtain ⟨earlier, _⟩ := silent_of_next (clears file) silent
          rw [taint]
          exact ih earlier

/-- A silent file has no current issues. -/
theorem current_of_silent (past : Chronicle cache) (silent : past.silent file = true) :
    cache.current file = ∅ := by
  obtain ⟨inProgress, committed⟩ := past.buffers_of_silent silent
  rw [current, inProgress, committed]
  rfl

/-- A silent file shows nothing. -/
theorem shown_of_silent (past : Chronicle cache) (silent : past.silent file = true) :
    cache.shown file = [] := by
  rw [shown, past.current_of_silent silent, past.taint_of_silent silent]
  exact Diagnostic.ofIssues_empty file

/-- Whatever shows a silent file shows it as the action leaves it, and that is without issues. -/
theorem eq_nil_of_shownInSilence (past : Chronicle cache) :
    ∀ list ∈ past.shownInSilence file, list = [] := by
  induction past with
  | beginning => exact fun _ member => nomatch member
  | @next cache past action possible ih =>
      intro list member
      rw [shownInSilence] at member
      split at member
      · rename_i silent
        rcases List.mem_append.mp member with earlier | last
        · exact ih list earlier
        · obtain ⟨publication, kept, rfl⟩ := List.mem_map.mp last
          obtain ⟨published, same⟩ := List.mem_filter.mp kept
          rw [past.publications_act action possible] at published
          obtain ⟨shown, _, rfl⟩ := List.mem_map.mp published
          obtain rfl : shown = file := of_decide_eq_true same
          exact shown_of_silent _ silent
      · cases member

/-- The clear by which a file has fallen silent has been shown. -/
theorem shownInSilence_ne_nil (past : Chronicle cache) (silent : past.silent file = true) :
    past.shownInSilence file ≠ [] := by
  induction past with
  | beginning => cases silent
  | @next cache past action possible ih =>
      rw [shownInSilence, if_pos silent]
      cases clears : action.clears file with
      | true =>
          rw [past.publications_act action possible, past.shownBy?_of_clears clears]
          simp
      | false =>
          obtain ⟨earlier, _⟩ := silent_of_next clears silent
          exact List.append_ne_nil_of_left_ne_nil (ih earlier) _

end Chronicle

/-- **Silence.** Once a file has been cleared, and until it is reported on or a refresh that has
begun since is answered, it has no issues, no identifier is one of an issue of it, and every list
published for it is empty, that of the clear included. -/
theorem nothing_seen_in_silence {cache : Cache} (past : Chronicle cache) {file : Url}
    (silent : past.silent file = true) :
    cache.count file = 0 ∧ (∀ id, cache.issue? file id = none) ∧ cache.taint.get file = [] ∧
      past.shownInSilence file ≠ [] ∧ ∀ list ∈ past.shownInSilence file, list = [] := by
  have empty := past.current_of_silent silent
  refine ⟨?_, fun id => ?_, past.taint_of_silent silent, past.shownInSilence_ne_nil silent,
    past.eq_nil_of_shownInSilence⟩
  · rw [count, empty]
    rfl
  · rw [issue?, empty]
    rfl

/-- A taint issue of the file of the passes. -/
def vulnerability (key : String) : TaintIssue where
  key
  ruleKey := "r:2"
  message := "tainted"
  severity := .blocker
  range := { startLine := 3, startColumn := 0, endLine := 3, endColumn := 1 }
  flows := []
  resolved := false

/-- A file that is cleared while a commit waits for a refresh, which then brings a taint issue. -/
def clearedMeanwhile :=
  ((((((Chronicle.beginning.next (.schedule project mainDocument) trivial).next
    (.report mainDocument (finding "one" 1)) trivial).next
    (.succeed mainFile 0) trivial).next
    (.clear mainFile) trivial).next
    (.finish ⟨0, mainFile⟩ (some [vulnerability "T"])) (by decide)).next
    (.resume ⟨0, mainFile, 0⟩) (by decide))

/-- The clear and the late commit show the file, and neither shows anything of it. -/
theorem late_commit_shows_nothing :
    clearedMeanwhile.silent mainFile = true ∧
      (clearedMeanwhile.shownInSilence mainFile).length = 2 ∧
      ∀ list ∈ clearedMeanwhile.shownInSilence mainFile, list = [] := by
  have silent : clearedMeanwhile.silent mainFile = true := by decide
  obtain ⟨_, _, _, _, empty⟩ := nothing_seen_in_silence clearedMeanwhile silent
  exact ⟨silent, by decide, empty⟩

end IssueRelay.Cache
