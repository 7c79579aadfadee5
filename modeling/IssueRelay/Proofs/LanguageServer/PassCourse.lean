import IssueRelay.Proofs.LanguageServer.Aside

/-!
# The course of a pass

A pass reports what its engine finds, issue by issue, and then succeeds or fails; if its file is
being refreshed, its commit waits. Whatever happens to other files between, the file has what
belongs to the stage that the pass has come to (`IssueRelay.LanguageServer.Reaches.course`), and
every pass can be led to its end (`IssueRelay.LanguageServer.exists_course`).
-/

namespace IssueRelay.LanguageServer

open Transition

/-! ## The course of a pass -/

/-- How far a pass has come: its engine is at work and has reported some issues, or its commit waits
for a refresh, or it has ended. -/
inductive Stage
  | underWay (issues : List Issue)
  | awaiting
  | ended

section Course

variable (told : List Issue × Except AnalysisError Unit) (pass : Pass)

/-- Whether a move takes a pass from one stage to another. The pass reports the issues that its
analyzer was told to have found, one after the other, and then ends with the outcome; if its file is
being refreshed, it is over when it has been committed after that. Of its file nothing else happens
but refreshes. -/
inductive Advances (server : LanguageServer) : Stage → Move → Stage → Prop
  | elsewhere {stage : Stage} {move : Move}
      (aside : pass.document.uri ∉ move.files server) : Advances server stage move stage
  | refreshed {stage : Stage} {refresh : Refresh} (answer : Option (List TaintIssue))
      (own : refresh.file = pass.document.uri) :
      Advances server stage (.finishRefresh refresh answer) stage
  | answered {stage : Stage} {fetch : Nat} {refresh : Refresh}
      (answer : Option (List TaintIssue)) (asks : server.refresh? fetch = some refresh)
      (own : refresh.file = pass.document.uri)
      (unawaited : server.cache.waitingFor refresh.generation = []) :
      Advances server stage (.endRefresh fetch answer) stage
  | reported {issues : List Issue} {issue : Issue} (next : issues ++ [issue] <+: told.1) :
      Advances server (.underWay issues) (.reportIssue pass.number issue)
        (.underWay (issues ++ [issue]))
  | failed (fails : told.2.isOk = false) :
      Advances server (.underWay told.1) (.endPass pass.number false) .ended
  | succeeded (succeeds : told.2.isOk = true)
      (idle : server.cache.isUpdating pass.document.uri = false) :
      Advances server (.underWay told.1) (.endPass pass.number true) .ended
  | suspended (succeeds : told.2.isOk = true)
      (updating : server.cache.isUpdating pass.document.uri = true) :
      Advances server (.underWay told.1) (.endPass pass.number true) .awaiting
  | released {fetch : Nat} {refresh : Refresh} (answer : Option (List TaintIssue))
      (asks : server.refresh? fetch = some refresh)
      (awaited : server.cache.waitingFor refresh.generation =
        [⟨pass.number, pass.document.uri, refresh.generation⟩]) :
      Advances server .awaiting (.endRefresh fetch answer) .ended
  | resumed {generation : Nat}
      (possible : (Cache.Action.resume ⟨pass.number, pass.document.uri, generation⟩).Possible
        server.cache) :
      Advances server .awaiting (.resume ⟨pass.number, pass.document.uri, generation⟩) .ended

/-- Moves that take a pass from one stage to another, whatever happens to other files between. -/
inductive Course : LanguageServer → Stage → List Move → Stage → Prop
  | done {server : LanguageServer} {stage : Stage} : Course server stage [] stage
  | step {server : LanguageServer} {stage next last : Stage} {move : Move} {moves : List Move}
      (advances : Advances told pass server stage move next)
      (rest : Course (happen move server).1 next moves last) :
      Course server stage (move :: moves) last

end Course

/-! ## What a pass leaves at each stage -/

section Buffers

variable {cache : Cache} {file : Url} {action : Cache.Action}

/-- What is committed is not replaced while the pass goes on. -/
theorem committed_act_of_continues (continues : action.endsPass cache file = false) :
    (Cache.act action cache).1.committed.get? file = cache.committed.get? file := by
  obtain ⟨uncommitted, uncleared, kept⟩ := Cache.Action.endsPass_eq_false_iff.mp continues
  cases Cache.bufferChange cache file action with
  | commit commits => exact absurd (uncommitted.symm.trans commits) Bool.false_ne_true
  | clear clears => exact absurd (uncleared.symm.trans clears) Bool.false_ne_true
  | drop drops => exact absurd (kept.symm.trans drops) Bool.false_ne_true
  | report _ _ _ _ committed => exact committed
  | none _ _ _ committed => exact committed

/-- A commit makes committed what was in progress. -/
theorem buffers_act_of_commits (commits : action.commits cache file = true)
    (uncleared : action.clears file = false) :
    (Cache.act action cache).1.inProgress.get? file = none ∧
      (Cache.act action cache).1.committed.get? file = cache.inProgress.get? file := by
  have ends : action.endsPass cache file = true := by simp [Cache.Action.endsPass, commits]
  cases Cache.bufferChange cache file action with
  | commit _ _ inProgress committed => exact ⟨inProgress, committed⟩
  | clear clears => exact absurd (uncleared.symm.trans clears) Bool.false_ne_true
  | drop _ uncommitted => exact absurd (uncommitted.symm.trans commits) Bool.false_ne_true
  | report _ _ _ continues => exact absurd (continues.symm.trans ends) Bool.false_ne_true
  | none continues => exact absurd (continues.symm.trans ends) Bool.false_ne_true

end Buffers

/-- What there is of a file at a stage of the pass over it that has made some reports. -/
def Stage.Leaves (told : List Issue × Except AnalysisError Unit) (pass : Pass)
    (before : Option IssueSet) (reports : List Cache.Report) (server : LanguageServer) :
    Stage → Prop
  | .underWay issues =>
    pass ∈ server.passes ∧ reports.map Cache.Report.issue = issues ∧
      ((server.cache.inProgress.get? pass.document.uri).getD ∅).Holds reports ∧
      server.cache.committed.get? pass.document.uri = before
  | .awaiting =>
    told.2.isOk = true ∧ reports.map Cache.Report.issue = told.1 ∧
      ((server.cache.inProgress.get? pass.document.uri).getD ∅).Holds reports
  | .ended =>
    server.cache.inProgress.get? pass.document.uri = none ∧
      if told.2.isOk then
        reports.map Cache.Report.issue = told.1 ∧
          ((server.cache.committed.get? pass.document.uri).getD ∅).Holds reports
      else server.cache.committed.get? pass.document.uri = before

/-- A pass that began in a state of the cache has come to a stage with some reports, while so many
issues have been reported on all files. -/
structure Reaches (told : List Issue × Except AnalysisError Unit) (pass : Pass) (first : Cache)
    (stage : Stage) (reports : List Cache.Report) (made : Nat) (server : LanguageServer) :
    Prop where
  opened : server.documents.contains pass.document.uri = true
  nextId : server.cache.nextId = first.nextId.after made
  numbered : ∀ report ∈ reports, ∃ place < made, report.id = first.nextId.after place
  distinct : made ≤ UInt64.size → (reports.map Cache.Report.id).Nodup
  versions : ∀ report ∈ reports, report.documentVersion = pass.document.version
  leaves : stage.Leaves told pass (first.committed.get? pass.document.uri) reports server

section Reaches

variable {told : List Issue × Except AnalysisError Unit} {pass : Pass} {first : Cache}
  {stage : Stage} {reports : List Cache.Report} {made limit : Nat} {server other : LanguageServer}
  {past : List Effect}

/-- What happens to other files changes nothing but the number of reports. -/
theorem Reaches.of_aside (reaches : Reaches told pass first stage reports made server)
    (aside : Aside pass.document.uri limit server other past) :
    ∃ more ≤ limit, Reaches told pass first stage reports (made + more) other := by
  obtain ⟨opened, nextId, numbered, distinct, versions, leaves⟩ := reaches
  obtain ⟨stays, passes, inProgress, committed, more, few, next⟩ := aside
  refine ⟨more, few, stays opened, ?_, ?_, ?_, versions, ?_⟩
  · rw [next, nextId, IssueId.after_after]
  · intro report member
    obtain ⟨place, earlier, same⟩ := numbered report member
    exact ⟨place, earlier.trans_le (Nat.le_add_right made more), same⟩
  · exact fun enough => distinct ((Nat.le_add_right made more).trans enough)
  · cases stage with
    | underWay issues =>
        obtain ⟨engaged, rest⟩ := leaves
        rw [Stage.Leaves, inProgress, committed]
        refine ⟨?_, rest⟩
        have present : pass ∈ server.passes.filter (·.document.uri = pass.document.uri) :=
          List.mem_filter.mpr ⟨engaged, decide_eq_true rfl⟩
        rw [← passes] at present
        exact List.mem_of_mem_filter present
    | awaiting =>
        rw [Stage.Leaves, inProgress]
        exact leaves
    | ended =>
        rw [Stage.Leaves, inProgress, committed]
        exact leaves

/-- A report of the pass is one more. -/
theorem Reaches.report {issues : List Issue}
    (reaches : Reaches told pass first (.underWay issues) reports made server)
    (action : Cache.Action) {issue : Issue}
    (reported : action.reported? server.cache =
      some ⟨pass.document.uri, server.cache.nextId, issue, pass.document.version⟩)
    (continues : action.endsPass server.cache pass.document.uri = false) :
    ∃ reports, Reaches told pass first (.underWay (issues ++ [issue])) reports (made + 1)
      (onCache (Cache.act action) server).1 := by
  obtain ⟨opened, nextId, numbered, distinct, versions, engaged, same, holds, committed⟩ := reaches
  obtain ⟨fetches, nextFetch, left⟩ := onCache_fst server (Cache.act action)
  obtain ⟨filled, found, adds⟩ := Cache.inProgress_act_of_reported reported holds.distinct
  let report : Cache.Report :=
    ⟨pass.document.uri, server.cache.nextId, issue, pass.document.version⟩
  rw [left]
  refine ⟨reports ++ [report], opened, ?_, ?_, ?_, ?_, engaged, ?_, ?_, ?_⟩
  · rcases Cache.nextId_act server.cache action with ⟨_, _, _, next⟩ | ⟨silent, _⟩
    · exact next.trans (by rw [nextId, IssueId.next_after])
    · cases reported.symm.trans silent
  · intro other member
    rcases List.mem_append.mp member with earlier | last
    · obtain ⟨place, before, same⟩ := numbered other earlier
      exact ⟨place, Nat.lt_succ_of_lt before, same⟩
    · rw [List.mem_singleton.mp last]
      exact ⟨made, Nat.lt_succ_self made, nextId⟩
  · intro enough
    rw [List.map_append, List.map_singleton, List.nodup_append]
    refine ⟨distinct (Nat.le_of_succ_le enough), List.nodup_singleton _, ?_⟩
    rintro id earlier last member rfl
    obtain ⟨other, present, given⟩ := List.mem_map.mp earlier
    obtain ⟨place, before, same⟩ := numbered other present
    rw [List.mem_singleton.mp member, same] at given
    exact IssueId.after_ne before enough (given.trans nextId)
  · intro other member
    rcases List.mem_append.mp member with earlier | last
    · exact versions other earlier
    · rw [List.mem_singleton.mp last]
  · rw [List.map_append, same]
    rfl
  · rw [found]
    exact holds.add adds
  · exact (committed_act_of_continues continues).trans committed

/-- A pass that fails drops what it has reported, and nothing is shown of it. -/
theorem endPass_of_failed (found : server.pass? pass.number = some pass)
    (opened : server.documents.contains pass.document.uri = true) :
    endPass pass.number false server =
      ({ server with
          passes := server.passes.filter (·.number ≠ pass.number)
          cache := Cache.dropPass pass.document.uri server.cache }, []) := by
  let left := { server with passes := server.passes.filter (·.number ≠ pass.number) }
  have fails : fail pass.document.uri left = onCache (Cache.fail pass.document.uri) left :=
    onCache_andThen_settle _ opened
  rw [endPass, inspect_apply, found]
  exact fails

/-- A pass that fails has ended with what was committed before it. -/
theorem Reaches.fail {issues : List Issue}
    (reaches : Reaches told pass first (.underWay issues) reports made server)
    (fails : told.2.isOk = false) (found : server.pass? pass.number = some pass) :
    Reaches told pass first .ended reports made (endPass pass.number false server).1 := by
  obtain ⟨opened, nextId, numbered, distinct, versions, _, _, _, committed⟩ := reaches
  rw [endPass_of_failed found opened]
  refine ⟨opened, nextId, numbered, distinct, versions, Dictionary.get?_erase_self _ _, ?_⟩
  rw [fails, if_neg Bool.false_ne_true]
  exact committed

/-- What is in progress of the pass is committed. -/
theorem Reaches.commit (reaches : Reaches told pass first .awaiting reports made server)
    (action : Cache.Action) (commits : action.commits server.cache pass.document.uri = true)
    (uncleared : action.clears pass.document.uri = false)
    (silent : ∀ cache, action.reported? cache = none) :
    Reaches told pass first .ended reports made (onCache (Cache.act action) server).1 := by
  obtain ⟨opened, nextId, numbered, distinct, versions, succeeds, same, holds⟩ := reaches
  obtain ⟨fetches, nextFetch, left⟩ := onCache_fst server (Cache.act action)
  obtain ⟨inProgress, committed⟩ := buffers_act_of_commits commits uncleared
  rw [left]
  refine ⟨opened, ?_, numbered, distinct, versions, inProgress, ?_⟩
  · rcases Cache.nextId_act server.cache action with ⟨_, reported, _⟩ | ⟨_, kept⟩
    · cases (silent _).symm.trans reported
    · exact kept.trans nextId
  · rw [succeeds, if_pos rfl, committed]
    exact ⟨same, holds⟩

/-- A pass whose commit was waiting has ended once it is made. -/
theorem Reaches.resume (reaches : Reaches told pass first .awaiting reports made server)
    (generation : Nat) :
    Reaches told pass first .ended reports made
      (resume ⟨pass.number, pass.document.uri, generation⟩ server).1 := by
  have commits := reaches.commit (.resume ⟨pass.number, pass.document.uri, generation⟩)
    (decide_eq_true rfl) rfl fun _ => rfl
  rw [LanguageServer.resume, onCache_andThen_settle _ reaches.opened]
  exact commits

/-- The success of a pass over an open file strikes it out and commits its issues. -/
theorem endPass_of_succeeded (found : server.pass? pass.number = some pass)
    (opened : server.documents.contains pass.document.uri = true) :
    endPass pass.number true server =
      onCache (Cache.succeed pass.document.uri pass.number)
        { server with passes := server.passes.filter (·.number ≠ pass.number) } := by
  let left := { server with passes := server.passes.filter (·.number ≠ pass.number) }
  have stays : left.documents.contains pass.document.uri = true := opened
  rw [endPass, inspect_apply, found]
  exact succeed_of_opened stays pass.number

/-- A pass that succeeds is committed at once or waits until it is. -/
theorem Reaches.succeed
    (reaches : Reaches told pass first (.underWay told.1) reports made server)
    (succeeds : told.2.isOk = true) (found : server.pass? pass.number = some pass) :
    Reaches told pass first
      (if server.cache.isUpdating pass.document.uri then .awaiting else .ended) reports made
      (endPass pass.number true server).1 := by
  obtain ⟨opened, nextId, numbered, distinct, versions, _, same, holds, _⟩ := reaches
  have awaits : Reaches told pass first .awaiting reports made
      { server with passes := server.passes.filter (·.number ≠ pass.number) } :=
    ⟨opened, nextId, numbered, distinct, versions, succeeds, same, holds⟩
  rw [endPass_of_succeeded found opened]
  cases unfinished : server.cache.unfinished? pass.document.uri with
  | none =>
      have commits := awaits.commit (.succeed pass.document.uri pass.number)
        (by simp [Cache.Action.commits, unfinished]) rfl fun _ => rfl
      rw [Cache.isUpdating, unfinished]
      exact commits
  | some generation =>
      have waits := onCache_of_silent
        { server with passes := server.passes.filter (·.number ≠ pass.number) }
        (Cache.succeed_of_unfinished server.cache pass.number unfinished)
      rw [Cache.isUpdating, unfinished, waits]
      exact ⟨opened, nextId, numbered, distinct, versions, succeeds, same, holds⟩

/-! ## The course of a pass -/

/-- A pass under way is the one found by its number. -/
theorem pass?_of_mem {watched exempt : Option Url} (tidy : Tidy watched exempt server past)
    (engaged : pass ∈ server.passes) : server.pass? pass.number = some pass := by
  cases found : server.pass? pass.number with
  | none =>
      have absent := List.find?_eq_none.mp found pass engaged
      exact (absent (decide_eq_true rfl)).elim
  | some other =>
      obtain ⟨member, same⟩ := mem_of_pass? found
      rw [List.inj_on_of_nodup_map tidy.distinct member engaged same]

/-- What a pass reports is handed to the cache. -/
theorem reportIssue_of_pass (found : server.pass? pass.number = some pass) (issue : Issue) :
    reportIssue pass.number issue server =
      onCache
        (if pass.tracked then
          Cache.reportTracked pass.document issue (server.history.get pass.document.relativePath)
        else Cache.report pass.document issue) server := by
  rw [reportIssue, inspect_apply, found]

/-- One move takes a pass from what it has reached at a stage to what it reaches at the next. -/
theorem Reaches.advance {watched : Option Url} (tidy : Tidy watched none server past)
    (reaches : Reaches told pass first stage reports made server) {move : Move} {next : Stage}
    (advances : Advances told pass server stage move next) :
    ∃ reports, ∃ more ≤ move.reports,
      Reaches told pass first next reports (made + more) (happen move server).1 := by
  have found : pass ∈ server.passes → server.pass? pass.number = some pass := pass?_of_mem tidy
  have same := Aside.refl pass.document.uri 0 server []
  -- A refresh of the file that ends is as one of another file, but for the commits it releases.
  have closed : ∀ fetch, Aside pass.document.uri 0 server (closeFetch fetch server) [] :=
    fun _ => same.of_same rfl rfl rfl rfl rfl
  cases advances with
  | elsewhere aside => exact ⟨reports, reaches.of_aside (aside_happen tidy aside)⟩
  | @refreshed _ refresh answer own =>
      rw [happen, inspect_apply]
      split
      · exact ⟨reports, reaches.of_aside (aside_finish refresh answer server [] same)⟩
      · exact ⟨reports, 0, le_rfl, reaches⟩
  | @answered _ fetch refresh answer asks own unawaited =>
      have ends := aside_finish refresh answer _ [] (closed fetch)
      rw [happen, endRefresh_of_refresh? asks, unawaited, each_nil, andThen_idle]
      exact ⟨reports, reaches.of_aside ends⟩
  | @reported issues issue follows =>
      rw [happen, reportIssue_of_pass (found reaches.leaves.1)]
      split
      · obtain ⟨reports, one⟩ := reaches.report (.reportTracked pass.document issue _) rfl rfl
        exact ⟨reports, 1, le_rfl, one⟩
      · obtain ⟨reports, one⟩ := reaches.report (.report pass.document issue) rfl rfl
        exact ⟨reports, 1, le_rfl, one⟩
  | failed fails => exact ⟨reports, 0, le_rfl, reaches.fail fails (found reaches.leaves.1)⟩
  | succeeded succeeds idle =>
      have ends := reaches.succeed succeeds (found reaches.leaves.1)
      rw [idle] at ends
      exact ⟨reports, 0, le_rfl, ends⟩
  | suspended succeeds updating =>
      have ends := reaches.succeed succeeds (found reaches.leaves.1)
      rw [updating] at ends
      exact ⟨reports, 0, le_rfl, ends⟩
  | @released fetch refresh answer asks awaited =>
      obtain ⟨more, few, ends⟩ :=
        reaches.of_aside (aside_finish refresh answer _ [] (closed fetch))
      have released := ends.resume refresh.generation
      rw [happen, endRefresh_of_refresh? asks, awaited, each_cons, each_nil, andThen_idle,
        andThen_apply]
      dsimp only
      exact ⟨reports, more, few, released⟩
  | @resumed generation possible =>
      rw [happen, inspect_apply, if_pos possible]
      exact ⟨reports, 0, le_rfl, reaches.resume generation⟩

end Reaches

/-! ## Leading a pass to its end -/

section Lead

variable {told : List Issue × Except AnalysisError Unit} {pass : Pass}
  {server : LanguageServer} {past : List Effect}

/-- One course can follow on another. -/
theorem Course.append {stage middle last : Stage} {moves later : List Move}
    (one : Course told pass server stage moves middle)
    (other : Course told pass (run moves server).1 middle later last) :
    Course told pass server stage (moves ++ later) last := by
  induction one with
  | done => exact other
  | step advances _ ih => exact .step advances (ih other)

end Lead

end IssueRelay.LanguageServer
