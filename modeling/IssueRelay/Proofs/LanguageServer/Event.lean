import IssueRelay.Proofs.LanguageServer.Pass

/-!
# Events of a tidy server

A server stays tidy through every event. Only files are opened that are not watched; a file that is
closed is cleared at once; and a refresh that ends finds its file open, or it does not count any
more.
-/

namespace IssueRelay.LanguageServer

open Transition

variable {watched exempt : Option Url} {file : Url}

/-! ## Analyses that are due -/

/-- The tasks that run keep the server tidy. -/
theorem fireTimers_tidies : Preserves (Tidy watched none) fireTimers := by
  intro server past tidy
  have analyses : Preserves (Tidy watched none)
      (each (fun timer => analyze timer.file) server.debouncer.fire.2) :=
    preserves_each fun _ _ => analyze_tidies
  exact analyses _ past (tidy.of_same rfl rfl rfl le_rfl)

/-- Files that begin to wait change the sleeping tasks only. -/
theorem foldl_waitFor (files : List Url) (server : LanguageServer) :
    ∃ debouncer, files.foldl (fun server file => server.waitFor file) server =
      { server with debouncer } := by
  induction files generalizing server with
  | nil => exact ⟨_, rfl⟩
  | cons file rest ih => exact ih (server.waitFor file)

theorem schedule_tidies (files : List Url) : Preserves (Tidy watched none) (schedule files) := by
  have waits : Preserves (Tidy watched none)
      (change fun server => files.foldl (fun server file => server.waitFor file) server) := by
    intro server past tidy
    obtain ⟨debouncer, left⟩ := foldl_waitFor files server
    rw [change_apply, left, List.append_nil]
    exact tidy.of_same rfl rfl rfl le_rfl
  exact waits.andThen fireTimers_tidies

theorem beginFetch_tidies (purpose : FetchPurpose) (endpoint : Endpoint) (binding : Binding)
    (path : String) :
    Preserves (Tidy watched none) (beginFetch purpose endpoint binding path) :=
  fun server _ tidy => tidy.of_untouched tidy.reached rfl rfl le_rfl (.refl server.cache) rfl

/-! ## Documents -/

/-- A file may be opened unless it is watched. -/
theorem Tidy.openText {server : LanguageServer} {past : List Effect}
    (tidy : Tidy watched none server past) (unwatched : watched ≠ some file) (version : Int32)
    (content : String) :
    Tidy watched none
      { server with documents := server.documents.openText file version content } past := by
  have before : ∀ other,
      (server.documents.openText file version content).contains other = false →
        server.documents.contains other = false := by
    intro other closed
    rw [DocumentStore.contains_openText, Bool.or_eq_false_iff] at closed
    exact closed.2
  refine ⟨tidy.reached, tidy.numbered, tidy.distinct, ?_, ?_, ?_⟩
  · intro other watching
    obtain ⟨⟨closed, disengaged, unwaiting⟩, unrefreshed⟩ := tidy.quiet other watching
    have different : other ≠ file := by
      rintro rfl
      exact unwatched watching
    refine ⟨⟨?_, disengaged, unwaiting⟩, unrefreshed⟩
    rw [DocumentStore.contains_openText, decide_eq_false different, closed]
    rfl
  · exact fun other counts closed => tidy.unrefreshed other counts (before other closed)
  · rintro other counts ⟨closed, disengaged, unwaiting⟩
    exact tidy.forgotten other counts ⟨before other closed, disengaged, unwaiting⟩

/-- Storing a text keeps the server tidy, unless it is one of the watched file. -/
theorem openText_tidies (unwatched : watched ≠ some file) (version : Int32) (content : String) :
    Preserves (Tidy watched none) (change fun server =>
      { server with documents := server.documents.openText file version content }) := by
  intro server past tidy
  rw [change_apply, List.append_nil]
  exact tidy.openText unwatched version content

/-- Opening a document keeps the server tidy, unless it is the watched file. -/
theorem openDocument_tidies (unwatched : watched ≠ some file) (version : Int32)
    (content : String) : Preserves (Tidy watched none) (openDocument file version content) := by
  refine (openText_tidies unwatched version content).andThen (ensures_inspect fun server => ?_)
  split
  · exact beginFetch_tidies _ _ _ _
  · exact analyze_tidies

/-- Changing a document keeps the server tidy, unless it is the watched file and there is a change.
-/
theorem changeDocument_tidies {contents : List String}
    (unwatched : contents ≠ [] → watched ≠ some file) (version : Int32) :
    Preserves (Tidy watched none) (changeDocument file version contents) := by
  intro server past tidy
  rw [changeDocument, inspect_apply]
  cases updated : contents.getLast?.bind (server.documents.update? file version) with
  | none => exact preserves_idle server past tidy
  | some documents =>
      obtain ⟨content, last, accepted⟩ := Option.bind_eq_some_iff.mp updated
      have nonempty : contents ≠ [] := by
        rintro rfl
        cases last
      rw [DocumentStore.eq_openText_of_update? accepted]
      exact schedule_tidies [file] _ past (tidy.openText (unwatched nonempty) version content)

/-- A file that is closed is exempt until it has been cleared. -/
theorem closeDocument_tidies (file : Url) :
    Preserves (Tidy watched none) (closeDocument file) := by
  have closes : Ensures (Tidy watched none) (Tidy watched (some file))
      (change fun server =>
        { server with
          debouncer := server.debouncer.cancel file
          documents := server.documents.close file }) := by
    intro server past tidy
    have before : ∀ other, some file ≠ some other →
        (server.documents.close file).contains other = server.documents.contains other := by
      intro other counts
      have different : other ≠ file := fun same => counts (congrArg some same.symm)
      rw [DocumentStore.contains_close, decide_eq_true different, Bool.true_and]
    rw [change_apply, List.append_nil]
    refine ⟨tidy.reached, tidy.numbered, tidy.distinct, ?_, ?_, ?_⟩
    · intro other watching
      obtain ⟨⟨closed, disengaged, unwaiting⟩, unrefreshed⟩ := tidy.quiet other watching
      refine ⟨⟨?_, disengaged, unwaiting⟩, unrefreshed⟩
      rw [DocumentStore.contains_close, closed, Bool.and_false]
    · intro other counts closed
      exact tidy.unrefreshed_of_closed ((before other counts).symm.trans closed)
    · rintro other counts ⟨closed, disengaged, unwaiting⟩
      exact tidy.forgotten_of_atRest
        ⟨(before other counts).symm.trans closed, disengaged, unwaiting⟩
  exact closes.andThen clear_tidies

/-! ## Configurations -/

theorem configure_tidies (config : Config) (tokens : Tokens) :
    Preserves (Tidy watched none) (change (configure config tokens)) := by
  intro server past tidy
  obtain ⟨chronicle⟩ := tidy.reached
  have reached := chronicle.next (.seedSecretSeen config.secretSeen) trivial
  exact tidy.of_untouched ⟨reached⟩ rfl rfl le_rfl (fun _ => ⟨rfl, rfl, rfl, rfl, rfl⟩) rfl

/-! ## Fetches -/

theorem closeFetch_tidies (number : Nat) :
    Preserves (Tidy watched none) (change (closeFetch number)) :=
  preserves_change (fun _ => rfl) (fun _ => rfl) (fun _ => rfl) fun _ => rfl

/-- The answer about earlier analyses keeps the server tidy. -/
theorem endHistory_tidies (number : Nat) (answer : Option (List ServerIssue)) :
    Preserves (Tidy watched none) (endHistory number answer) := by
  have learns : ∀ path, Preserves (Tidy watched none) (change (learn path answer)) := by
    intro path
    cases answer <;>
      exact preserves_change (fun _ => rfl) (fun _ => rfl) (fun _ => rfl) fun _ => rfl
  refine ensures_inspect fun server => ?_
  split
  · exact (closeFetch_tidies number).andThen ((learns _).andThen analyze_tidies)
  · exact preserves_idle

/-- Refreshes under way have ended for some commits that wait, which are about to be made. -/
structure Resuming (watched exempt : Option Url) (pendings : List WaitingCommit)
    (server : LanguageServer) (past : List Effect) : Prop where
  tidy : Tidy watched exempt server past
  waiting : pendings.Subperm server.cache.waiting
  ended : ∀ pending ∈ pendings, server.cache.isRunning pending.generation = false

/-- A refresh that is registered is one of an open file. Any other only ends. -/
theorem Tidy.finish {server : LanguageServer} {past : List Effect}
    (tidy : Tidy watched none server past) {refresh : Refresh}
    (live : refresh ∈ server.cache.running) (answer : Option (List TaintIssue)) :
    Tidy watched none (onCache (Cache.endRefresh refresh answer) server).1
      (past ++ (onCache (Cache.endRefresh refresh answer) server).2) := by
  by_cases registered : server.cache.registered.get? refresh.file = some refresh.generation
  · have opened : server.documents.contains refresh.file = true := by
      by_contra closed
      obtain ⟨unregistered, _⟩ := tidy.unrefreshed_of_closed (Bool.eq_false_iff.mpr closed)
      rw [unregistered] at registered
      cases registered
    apply tidy.act (.finish refresh answer) live
    · rw [Cache.begun_act]
      exact fun _ begun => nomatch begun
    · intro file subject
      rw [← Option.some.inj subject]
      exact .inr (.inl opened)
  · have ends := Cache.endRefresh_of_unregistered server.cache answer registered
    obtain ⟨chronicle⟩ := tidy.reached
    have reached := chronicle.next (.finish refresh answer) live
    rw [Cache.act, ends] at reached
    rw [onCache_of_silent server ends]
    exact tidy.of_untouched ⟨reached⟩ rfl rfl le_rfl (fun _ => ⟨rfl, rfl, rfl, rfl, rfl⟩) rfl

/-- When a refresh has ended, the commits that have waited for it are about to be made. -/
theorem Tidy.resuming {server : LanguageServer} {past : List Effect}
    (tidy : Tidy watched none server past) {refresh : Refresh}
    (live : refresh ∈ server.cache.running) (answer : Option (List TaintIssue)) :
    Resuming watched none (server.cache.waitingFor refresh.generation)
      (onCache (Cache.endRefresh refresh answer) server).1
      (past ++ (onCache (Cache.endRefresh refresh answer) server).2) := by
  have stays := tidy.finish live answer
  obtain ⟨chronicle⟩ := tidy.reached
  have ended := chronicle.isRunning_endRefresh live answer
  obtain ⟨taint, seen, finished⟩ := Cache.endRefresh_fst server.cache refresh answer
  obtain ⟨fetches, nextFetch, left⟩ := onCache_fst server (Cache.endRefresh refresh answer)
  rw [left] at stays ⊢
  refine ⟨stays, ?_, ?_⟩
  · rw [finished]
    exact List.filter_sublist.subperm
  · intro pending member
    rw [of_decide_eq_true (List.mem_filter.mp member).2]
    exact ended

/-- Each commit exempts its file until it is settled. -/
theorem resume_ensures (pending : WaitingCommit) (rest : List WaitingCommit) :
    Ensures (Resuming watched none (pending :: rest)) (Resuming watched none rest)
      (resume pending) := by
  have commits : Ensures (Resuming watched none (pending :: rest))
      (Resuming watched (some pending.file) rest) (onCache (Cache.resume pending)) := by
    rintro server past ⟨tidy, waiting, ended⟩
    have stays := (tidy.exempting pending.file).act (.resume pending)
      ⟨waiting.subset List.mem_cons_self, ended pending List.mem_cons_self⟩
      (by
        rw [Cache.begun_act]
        exact fun _ begun => nomatch begun)
      fun file subject => .inl subject
    obtain ⟨seen, resumed⟩ := Cache.resume_fst server.cache pending
    obtain ⟨fetches, nextFetch, left⟩ := onCache_fst server (Cache.resume pending)
    rw [Cache.act, left] at stays
    rw [left]
    refine ⟨stays, ?_, ?_⟩
    · rw [resumed]
      simpa using waiting.erase pending
    · rw [resumed]
      exact fun other member => ended other (List.mem_cons_of_mem _ member)
  -- Settling a file may clear it, which leaves the commits that wait and the refreshes under way.
  have settles : Ensures (Resuming watched (some pending.file) rest) (Resuming watched none rest)
      (settle pending.file) := by
    rintro server past ⟨tidy, waiting, ended⟩
    have stays := settle_tidies server past tidy
    rw [settle, inspect_apply] at stays ⊢
    cases opened : server.documents.contains pending.file with
    | true =>
        rw [opened] at stays
        exact ⟨stays, waiting, ended⟩
    | false =>
        obtain ⟨fetches, nextFetch, left⟩ := onCache_fst server (Cache.clear pending.file)
        rw [opened, if_neg Bool.false_ne_true, left] at stays
        rw [if_neg Bool.false_ne_true, left]
        refine ⟨stays, ?_, ?_⟩
        · rw [Cache.clear_fst]
          exact waiting
        · rw [Cache.clear_fst]
          exact ended
  exact commits.andThen settles

/-- Making the commits that have waited leaves the server tidy. -/
theorem resumes_tidy (pendings : List WaitingCommit) :
    Ensures (Resuming watched none pendings) (Tidy watched none) (each resume pendings) := by
  induction pendings with
  | nil => exact fun server past resuming => preserves_idle server past resuming.tidy
  | cons pending rest ih => exact (resume_ensures pending rest).andThen ih

/-- The end of a refresh keeps the server tidy. -/
theorem endRefresh_tidies (number : Nat) (answer : Option (List TaintIssue)) :
    Preserves (Tidy watched none) (endRefresh number answer) := by
  intro server past tidy
  rw [endRefresh, inspect_apply]
  cases opened : server.fetch? number with
  | none => exact preserves_idle server past tidy
  | some fetch =>
      obtain ⟨_, purpose⟩ := fetch
      cases purpose with
      | history file path => exact preserves_idle server past tidy
      | refresh generation =>
          dsimp only
          cases found : server.cache.running.find? (·.generation = generation) with
          | none => exact closeFetch_tidies number server past tidy
          | some refresh =>
              obtain ⟨live, rfl⟩ := Cache.mem_running_of_find? found
              have closed : Tidy watched none (closeFetch number server) past :=
                tidy.of_same rfl rfl rfl le_rfl
              have made := resumes_tidy _ _ _ (closed.resuming live answer)
              rw [List.append_assoc] at made
              exact made

end IssueRelay.LanguageServer
