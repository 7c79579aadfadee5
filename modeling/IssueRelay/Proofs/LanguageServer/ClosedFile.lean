import IssueRelay.Proofs.Cache.Silence
import IssueRelay.Proofs.LanguageServer.Event

/-!
# Closed files

Whatever happens to a server, and whatever comes in between, it stays tidy. So nothing is left of a
file that is closed when the last pass over it has ended, and a fetch for it that ends later comes
to nothing (`IssueRelay.LanguageServer.closed_file_leaves_nothing`).
-/

namespace IssueRelay.LanguageServer

open Transition

/-- Something that happens to a language server: an event, or the part of one when others come in
between. A binding may take effect later than the rest of its configuration, an opened file be
analyzed when its turn has come, and a commit be made some time after its refresh has ended. -/
inductive Move
  | openWorkspace (root : Option FilePath)
  | start (config : Config) (tokens : Tokens)
  | reconfigure (config : Config) (tokens : Tokens)
  | embedEngine
  | openDocument (file : Url) (version : Int32) (content : String)
  | changeDocument (file : Url) (version : Int32) (contents : List String)
  | saveDocument (file : Url)
  | closeDocument (file : Url)
  | passTime (milliseconds : Nat)
  | reportIssue (number : Nat) (issue : Issue)
  | endPass (number : Nat) (succeeded : Bool)
  | endHistory (number : Nat) (answer : Option (List ServerIssue))
  | endRefresh (number : Nat) (answer : Option (List TaintIssue))
  | bind (binding : Option Binding)
  | openText (file : Url) (version : Int32) (content : String)
  | fetchHistory (file : Url) (binding : Binding) (path : String)
  | analyze (file : Url)
  | finishRefresh (refresh : Refresh) (answer : Option (List TaintIssue))
  | resume (pending : WaitingCommit)

/-- Whether a file may be open after a move that was not before. -/
def Move.opens (file : Url) : Move → Bool
  | .openDocument opened _ _ => opened = file
  | .changeDocument changed _ contents => changed = file && !contents.isEmpty
  | .openText opened _ _ => opened = file
  | _ => false

/-- What a move does. A refresh ends only once, and a commit that has waited is made after the
refresh that it has waited for. -/
def happen : Move → Transition LanguageServer Effect
  | .openWorkspace root => change (openWorkspace root)
  | .start config tokens => start config tokens
  | .reconfigure config tokens => reconfigure config tokens
  | .embedEngine => change embedEngine
  | .openDocument file version content => openDocument file version content
  | .changeDocument file version contents => changeDocument file version contents
  | .saveDocument file => saveDocument file
  | .closeDocument file => closeDocument file
  | .passTime milliseconds => passTime milliseconds
  | .reportIssue number issue => reportIssue number issue
  | .endPass number succeeded => endPass number succeeded
  | .endHistory number answer => endHistory number answer
  | .endRefresh number answer => endRefresh number answer
  | .bind binding => change fun server => { server with binding }
  | .openText file version content => change fun server =>
    { server with documents := server.documents.openText file version content }
  | .fetchHistory file binding path => beginFetch (.history file path) .tracking binding path
  | .analyze file => analyze file
  | .finishRefresh refresh answer => inspect fun server =>
    if (Cache.Action.finish refresh answer).Possible server.cache then
      onCache (Cache.endRefresh refresh answer)
    else idle
  | .resume pending => inspect fun server =>
    if (Cache.Action.resume pending).Possible server.cache then resume pending else idle

/-- What a sequence of moves does. -/
def run : List Move → Transition LanguageServer Effect :=
  each happen

variable {watched : Option Url} {file : Url}

/-- Every move that does not open the watched file keeps the server tidy. -/
theorem happen_tidies {move : Move}
    (unopened : ∀ file, watched = some file → move.opens file = false) :
    Preserves (Tidy watched none) (happen move) := by
  have shut : ∀ {file}, move.opens file = true → watched ≠ some file := by
    intro file opens watching
    rw [unopened file watching] at opens
    cases opens
  cases move with
  | openWorkspace root =>
      exact preserves_change (fun _ => rfl) (fun _ => rfl) (fun _ => rfl) fun _ => rfl
  | start config tokens =>
      exact (configure_tidies config tokens).andThen (ensures_inspect fun _ => preserves_emit rfl)
  | reconfigure config tokens =>
      exact (configure_tidies config tokens).andThen (ensures_inspect fun _ => schedule_tidies _)
  | embedEngine =>
      exact preserves_change (fun _ => rfl) (fun _ => rfl) (fun _ => rfl) fun _ => rfl
  | openDocument file version content =>
      exact openDocument_tidies (shut (decide_eq_true rfl)) version content
  | changeDocument file version contents =>
      apply changeDocument_tidies
      intro nonempty
      apply shut
      simp [Move.opens, nonempty]
  | saveDocument file => exact schedule_tidies [file]
  | closeDocument file => exact closeDocument_tidies file
  | passTime milliseconds =>
      have passes : Preserves (Tidy watched none) (change fun server =>
          { server with debouncer := server.debouncer.advance milliseconds }) :=
        preserves_change (fun _ => rfl) (fun _ => rfl) (fun _ => rfl) fun _ => rfl
      exact passes.andThen fireTimers_tidies
  | reportIssue number issue => exact reportIssue_tidies number issue
  | endPass number succeeded => exact endPass_tidies number succeeded
  | endHistory number answer => exact endHistory_tidies number answer
  | endRefresh number answer => exact endRefresh_tidies number answer
  | bind binding =>
      exact preserves_change (fun _ => rfl) (fun _ => rfl) (fun _ => rfl) fun _ => rfl
  | openText file version content =>
      exact openText_tidies (shut (decide_eq_true rfl)) version content
  | fetchHistory file binding path => exact beginFetch_tidies _ _ _ _
  | analyze file => exact analyze_tidies
  | finishRefresh refresh answer =>
      intro server past tidy
      rw [happen, inspect_apply]
      by_cases live : (Cache.Action.finish refresh answer).Possible server.cache
      · rw [if_pos live]
        exact tidy.finish live answer
      · rw [if_neg live]
        exact preserves_idle server past tidy
  | resume pending =>
      intro server past tidy
      rw [happen, inspect_apply]
      by_cases possible : (Cache.Action.resume pending).Possible server.cache
      · obtain ⟨waits, ended⟩ := possible
        have alone : Resuming watched none [pending] server past :=
          ⟨tidy, List.singleton_subperm_iff.mpr waits, List.forall_mem_singleton.mpr ended⟩
        rw [if_pos ⟨waits, ended⟩]
        exact (resume_ensures pending [] server past alone).tidy
      · rw [if_neg possible]
        exact preserves_idle server past tidy

/-- Every run that does not open the watched file keeps the server tidy. -/
theorem run_tidies {moves : List Move}
    (unopened : ∀ file, watched = some file → ∀ move ∈ moves, move.opens file = false) :
    Preserves (Tidy watched none) (run moves) :=
  preserves_each fun move member =>
    happen_tidies fun file watching => unopened file watching move member

/-! ## Fetches that end later -/

/-- What a fetch is for, if it has not ended. -/
def purpose? (server : LanguageServer) (number : Nat) : Option FetchPurpose :=
  (server.fetch? number).map OpenFetch.purpose

/-- The refresh under way that a fetch is for. -/
def refresh? (server : LanguageServer) (number : Nat) : Option Refresh :=
  match server.purpose? number with
  | some (.refresh generation) => server.cache.running.find? (·.generation = generation)
  | _ => none

variable {server : LanguageServer} {past : List Effect} {number : Nat}

/-- A refresh under way that a fetch is for is one with its generation. -/
theorem fetch?_of_refresh? {refresh : Refresh} (asks : server.refresh? number = some refresh) :
    (∃ own, server.fetch? number = some ⟨own, .refresh refresh.generation⟩) ∧
      server.cache.running.find? (·.generation = refresh.generation) = some refresh := by
  rw [refresh?] at asks
  split at asks
  · rename_i generation purpose
    obtain ⟨⟨own, _⟩, opened, rfl⟩ := Option.map_eq_some_iff.mp purpose
    obtain ⟨_, rfl⟩ := Cache.mem_running_of_find? asks
    exact ⟨⟨own, opened⟩, asks⟩
  · cases asks

/-- The commits that wait for a refresh are those of passes over its file. -/
theorem AtRest.unwaited {refresh : Refresh} (rest : AtRest server refresh.file)
    (chronicle : Cache.Chronicle server.cache) (live : refresh ∈ server.cache.running) :
    server.cache.waitingFor refresh.generation = [] := by
  apply List.filter_eq_nil_iff.mpr
  intro pending waits awaited
  have same := (of_decide_eq_true awaited).symm
  have own := (chronicle.waits_for_own_refresh pending waits).2 refresh live same
  exact List.any_eq_false.mp rest.unwaiting pending waits (decide_eq_true own.symm)

/-- The refresh of a file at rest does not count any more, and no commit waits for it. -/
theorem Tidy.endRefresh_of_atRest (tidy : Tidy watched none server past) {refresh : Refresh}
    (rest : AtRest server refresh.file) (asks : server.refresh? number = some refresh)
    (answer : Option (List TaintIssue)) :
    endRefresh number answer server =
      ({ server with
          fetches := server.fetches.filter (·.number ≠ number)
          cache :=
            { server.cache with running := server.cache.running.filter (· ≠ refresh) } }, []) := by
  obtain ⟨⟨own, opened⟩, found⟩ := fetch?_of_refresh? asks
  obtain ⟨live, _⟩ := Cache.mem_running_of_find? found
  obtain ⟨chronicle⟩ := tidy.reached
  have unregistered : server.cache.registered.get? refresh.file ≠ some refresh.generation := by
    rw [(tidy.unrefreshed_of_closed rest.closed).registered]
    exact (Option.some_ne_none _).symm
  have ends := Cache.endRefresh_of_unregistered server.cache answer unregistered
  have relayed := onCache_of_silent (closeFetch number server) ends
  rw [endRefresh, inspect_apply, opened]
  dsimp only
  rw [found]
  dsimp only
  rw [rest.unwaited chronicle live, each_nil, andThen_idle, andThen_apply, change_apply, relayed]
  rfl

/-- The issues of a closed file that are known from earlier analyses are learned, and the file is
not analyzed. -/
theorem endHistory_of_closed {path : String} (closed : server.documents.contains file = false)
    (asks : server.purpose? number = some (.history file path))
    (answer : Option (List ServerIssue)) :
    endHistory number answer server = (learn path answer (closeFetch number server), []) := by
  obtain ⟨⟨_, purpose⟩, opened, same⟩ := Option.map_eq_some_iff.mp asks
  dsimp only at same
  subst same
  have absent : (learn path answer (closeFetch number server)).document? file = none := by
    rw [DocumentStore.contains_eq_isSome_snapshot? _ server.root] at closed
    cases answer <;> exact Option.isSome_eq_false_iff.mp closed |> Option.isNone_iff_eq_none.mp
  rw [endHistory, inspect_apply, opened]
  dsimp only
  rw [andThen_apply, andThen_apply, change_apply, change_apply, analyze, inspect_apply, absent]
  rfl

/-- **Closed files.** When a file is neither open nor analyzed, whatever has happened, there are no
issues of it, neither committed nor in progress nor taint, no refresh of it counts, and the editor
has been shown none, or has been shown last that there are none. As long as it is not opened again
it stays so, and a fetch for it that ends then shows nothing and changes nothing but that it is
over: what is learned from earlier analyses is kept for the path, for when the file is analyzed
again. -/
theorem closed_file_leaves_nothing (moves : List Move) (file : Url)
    (rest : AtRest (run moves initial).1 file) :
    Forgotten (run moves initial).1.cache (run moves initial).2 file ∧
      Unrefreshed (run moves initial).1.cache file ∧
      ∀ later, (∀ move ∈ later, move.opens file = false) →
        let server := (run later (run moves initial).1).1
        AtRest server file ∧
          (∀ number refresh, server.refresh? number = some refresh → refresh.file = file →
            ∀ answer, endRefresh number answer server =
              ({ server with
                  fetches := server.fetches.filter (·.number ≠ number)
                  cache :=
                    { server.cache with
                      running := server.cache.running.filter (· ≠ refresh) } }, [])) ∧
          ∀ number path, server.purpose? number = some (.history file path) →
            ∀ answer, endHistory number answer server =
              (learn path answer (closeFetch number server), []) := by
  have tidy : Tidy none none (run moves initial).1 (run moves initial).2 :=
    run_tidies (fun file watching => (Option.some_ne_none file watching.symm).elim) initial []
      tidy_initial
  have unrefreshed := tidy.unrefreshed_of_closed rest.closed
  refine ⟨tidy.forgotten_of_atRest rest, unrefreshed, fun later unopened => ?_⟩
  -- What follows is a run of its own, from a state in which the file may be watched.
  have watching : Tidy (some file) none (run moves initial).1 (run moves initial).2 :=
    { tidy with
      quiet := by
        rintro other same
        rw [← Option.some.inj same]
        exact ⟨rest, unrefreshed⟩ }
  have shut : ∀ other, some file = some other → ∀ move ∈ later, move.opens other = false := by
    rintro other same
    rw [← Option.some.inj same]
    exact unopened
  have stays := run_tidies shut _ _ watching
  obtain ⟨still, _⟩ := stays.quiet file rfl
  refine ⟨still, ?_, ?_⟩
  · rintro number refresh asks rfl answer
    exact stays.endRefresh_of_atRest still asks answer
  · intro number path asks answer
    exact endHistory_of_closed still.closed asks answer

/-- A file that is closed during the pass over it, which reports an issue afterwards and succeeds.
The refresh that began with the pass goes on. -/
def closedDuringPass : List Move :=
  [.bind (some Cache.project), .embedEngine, .openDocument Cache.mainFile 1 "",
    .endHistory 0 (some []), .closeDocument Cache.mainFile,
    .reportIssue 0 (Cache.finding "late" 1), .endPass 0 true]

/-- When the pass has ended, the editor has been told that there are no issues of the file, and
the answer to the refresh shows it none. -/
theorem late_answer_shows_nothing :
    AtRest (run closedDuringPass initial).1 Cache.mainFile ∧
      lastPublished? Cache.mainFile (run closedDuringPass initial).2 = some [] ∧
      (endRefresh 1 (some [Cache.vulnerability "T"]) (run closedDuringPass initial).1).2 = [] := by
  have rest : AtRest (run closedDuringPass initial).1 Cache.mainFile := by
    decide +kernel
  have told : (lastPublished? Cache.mainFile (run closedDuringPass initial).2).isSome = true := by
    decide +kernel
  have asks : (run closedDuringPass initial).1.refresh? 1 = some ⟨0, Cache.mainFile⟩ := by
    decide +kernel
  have nothing := closed_file_leaves_nothing closedDuringPass Cache.mainFile rest
  generalize run closedDuringPass initial = reached at rest told asks nothing ⊢
  obtain ⟨⟨_, _, shown⟩, _, later⟩ := nothing
  obtain ⟨_, ends, _⟩ := later [] (List.forall_mem_nil _)
  obtain ⟨list, published⟩ := Option.isSome_iff_exists.mp told
  refine ⟨rest, ?_, congrArg Prod.snd (ends 1 _ asks rfl _)⟩
  rw [published, shown list published]

end IssueRelay.LanguageServer
