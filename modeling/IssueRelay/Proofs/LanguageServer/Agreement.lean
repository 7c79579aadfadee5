import IssueRelay.Proofs.Cache.Agreement
import IssueRelay.Proofs.LanguageServer.ClosedFile

/-!
# Two servers that agree on a file

Two servers may know different issues from earlier analyses under one path, and hold different
statuses of the issues of the files that go by it. A file that goes by another path is none of
these: whatever happens to both servers, they agree on it still, and bring about the same but for
what is shown of other files (`IssueRelay.LanguageServer.concurs_run`).
-/

namespace IssueRelay.LanguageServer

open Transition

/-- Two servers differ only in what they know from earlier analyses under a path, in the issues of
files other than one, and in whether a secret was announced. The file goes by another path. -/
structure Agree (file : Url) (path : String) (left right : LanguageServer) : Prop where
  cache : Cache.Agree file left.cache right.cache
  history : ∀ other ≠ path, left.history.get other = right.history.get other
  apart : relativePath left.root file ≠ path
  passesApart : ∀ pass ∈ left.passes, pass.document.uri = file →
    pass.document.relativePath ≠ path
  root : left.root = right.root
  binding : left.binding = right.binding
  engine : left.engine = right.engine
  documents : left.documents = right.documents
  debouncer : left.debouncer = right.debouncer
  passes : left.passes = right.passes
  nextPass : left.nextPass = right.nextPass
  fetches : left.fetches = right.fetches
  nextFetch : left.nextFetch = right.nextFetch

/-- Whether an effect is the same for servers that agree on a file: not if it shows another file, or
may be about a secret in one. -/
def Effect.concerns (file : Url) : Effect → Bool
  | .publish shown _ => shown = file
  | .announceSecret | .remark _ => false
  | .greet _ | .beginFetch _ _ _ _ | .beginPass _ _ => true

/-- Whether a transition does the same to servers that agree on a file. -/
abbrev Concurs (file : Url) (path : String) (step : Transition LanguageServer Effect) : Prop :=
  Matches (Agree file path) (Effect.concerns file) step step

variable {file : Url} {path : String}

/-! ## What is looked up -/

section Lookups

variable {left right : LanguageServer} (agree : Agree file path left right)

include agree

theorem Agree.document? (other : Url) : left.document? other = right.document? other := by
  rw [LanguageServer.document?, LanguageServer.document?, agree.documents, agree.root]

theorem Agree.pass? (number : Nat) : left.pass? number = right.pass? number := by
  rw [LanguageServer.pass?, LanguageServer.pass?, agree.passes]

theorem Agree.fetch? (number : Nat) : left.fetch? number = right.fetch? number := by
  rw [LanguageServer.fetch?, LanguageServer.fetch?, agree.fetches]

end Lookups

/-! ## What happens to the cache -/

/-- Effects of the cache that do not concern the file make no difference. -/
theorem relays_filter (effects : List Cache.Effect) (server : LanguageServer) :
    (each relay effects server).1 =
        (each relay (effects.filter (Cache.Effect.concerns file)) server).1 ∧
      (each relay effects server).2.filter (Effect.concerns file) =
        (each relay (effects.filter (Cache.Effect.concerns file)) server).2.filter
          (Effect.concerns file) := by
  induction effects generalizing server with
  | nil => exact ⟨rfl, rfl⟩
  | cons effect rest ih =>
      rw [each_cons, List.filter_cons]
      cases concerned : Cache.Effect.concerns file effect with
      | true =>
          obtain ⟨left, told⟩ := ih (relay effect server).1
          rw [if_pos rfl, each_cons, andThen_apply, andThen_apply, List.filter_append,
            List.filter_append, left, told]
          exact ⟨rfl, rfl⟩
      | false =>
          -- One server may announce a secret that the other announced before, so the effects of
          -- two runs do not stand side by side.
          have silent : (relay effect server).1 = server ∧
              (relay effect server).2.filter (Effect.concerns file) = [] := by
            cases effect with
            | publish shown diagnostics =>
                refine ⟨rfl, ?_⟩
                have other : Effect.concerns file (.publish shown diagnostics) = false := concerned
                rw [relay, emit_apply, List.filter_cons, other]
                rfl
            | announceSecret | remark note => exact ⟨rfl, rfl⟩
            | _ => cases concerned
          rw [if_neg Bool.false_ne_true, andThen_apply, List.filter_append, silent.1, silent.2]
          exact ih server

theorem concurs_beginFetch (purpose : FetchPurpose) (endpoint : Endpoint) (binding : Binding)
    (asked : String) : Concurs file path (beginFetch purpose endpoint binding asked) := by
  intro left right agree
  rw [beginFetch, beginFetch, agree.nextFetch]
  exact ⟨{ agree with
    fetches := congrArg (· ++ _) agree.fetches
    nextFetch := rfl }, rfl⟩

/-- An effect of the cache comes to the same in servers that agree. -/
theorem concurs_relay (effect : Cache.Effect) : Concurs file path (relay effect) := by
  cases effect with
  | beginFetch refresh binding asked => exact concurs_beginFetch _ _ _ _
  | publish | announceSecret | remark => exact matches_emit rfl
  | numbered | returned => exact matches_idle

/-- What does the same to caches that agree does the same to servers that agree. -/
theorem matches_onCache {step other : Transition Cache Cache.Effect}
    (concur : Cache.Concur file step other) :
    Matches (Agree file path) (Effect.concerns file) (onCache step) (onCache other) := by
  intro left right agree
  obtain ⟨cache, told⟩ := concur left.cache right.cache agree.cache
  rw [onCache, onCache]
  dsimp only
  rw [(relays_filter _ _).1, (relays_filter _ _).2, (relays_filter (other right.cache).2 _).1,
    (relays_filter (other right.cache).2 _).2, told]
  exact matches_each (fun effect _ => concurs_relay effect) _ _ { agree with cache }

/-! ## Passes

What a pass does depends on the documents, the binding and the engine, in which servers that agree
do not differ, and on the issues of its own file. Only a report looks into what is known of earlier
analyses.
-/

theorem concurs_settle (settled : Url) : Concurs file path (settle settled) := by
  refine matches_inspect fun left right agree => ?_
  rw [agree.documents]
  split
  · exact matches_idle
  · exact matches_onCache (Cache.concur_clear settled)

theorem concurs_succeed (done : Url) (ticket : Nat) : Concurs file path (succeed done ticket) := by
  refine matches_inspect fun left right agree => ?_
  refine (matches_onCache (Cache.concur_succeed done ticket)).andThen ?_
  rw [agree.cache.isUpdating]
  split
  · exact matches_idle
  · exact concurs_settle done

theorem concurs_fail (failed : Url) : Concurs file path (fail failed) :=
  (matches_onCache (Cache.concur_dropPass failed)).andThen (concurs_settle failed)

theorem concurs_runPass {pass : Pass}
    (apart : pass.document.uri = file → pass.document.relativePath ≠ path) :
    Concurs file path (runPass pass) := by
  refine matches_inspect fun left right agree => ?_
  rw [agree.engine]
  split
  · exact concurs_succeed _ _
  · refine (matches_change fun left right agree => ?_).andThen (matches_emit rfl)
    refine { agree with
      passes := congrArg (· ++ [pass]) agree.passes
      passesApart := ?_ }
    intro other member
    rcases List.mem_append.mp member with earlier | last
    · exact agree.passesApart other earlier
    · rwa [List.mem_singleton.mp last]

theorem concurs_beginPass {document : Document}
    (apart : document.uri = file → document.relativePath ≠ path) :
    Concurs file path (beginPass document) := by
  refine matches_inspect fun left right agree => ?_
  rw [agree.nextPass, agree.binding]
  refine Matches.andThen ?_ <|
    (matches_onCache (Cache.concur_dropPass document.uri)).andThen <|
      Matches.andThen ?_ (concurs_runPass apart)
  · exact matches_change fun _ _ agree =>
      { agree with nextPass := congrArg (· + 1) agree.nextPass }
  · split
    · exact matches_onCache (matches_each fun document _ => Cache.concur_scheduleOne _ document)
    · exact matches_idle

theorem concurs_analyze (analyzed : Url) : Concurs file path (analyze analyzed) := by
  refine matches_inspect fun left right agree => ?_
  rw [← agree.document?]
  split
  · rename_i document found
    refine concurs_beginPass fun mine => ?_
    obtain ⟨stored, _, made⟩ := Option.map_eq_some_iff.mp found
    subst made
    obtain rfl : analyzed = file := mine
    exact agree.apart
  · exact matches_idle

/-- A report does the same to servers that agree, since the file is not tracked under the path. -/
theorem concurs_reportIssue (number : Nat) (issue : Issue) :
    Concurs file path (reportIssue number issue) := by
  refine matches_inspect fun left right agree => ?_
  rw [← agree.pass? number]
  split
  · rename_i pass present
    refine matches_onCache ?_
    split
    · -- Of a file that goes by the path, the servers may know different issues here.
      refine Cache.concur_reportTracked _ issue fun mine => agree.history _ ?_
      exact agree.passesApart pass (List.mem_of_find?_eq_some present) mine
    · exact Cache.concur_report _ issue
  · exact matches_idle

theorem concurs_endPass (number : Nat) (succeeded : Bool) :
    Concurs file path (endPass number succeeded) := by
  refine matches_inspect fun left right agree => ?_
  rw [← agree.pass? number]
  split
  · refine (matches_change fun left right agree => ?_).andThen ?_
    · exact { agree with
        passes := congrArg (·.filter fun pass => pass.number ≠ number) agree.passes
        passesApart := fun pass member => agree.passesApart pass (List.mem_of_mem_filter member) }
    · split
      · exact concurs_succeed _ _
      · exact concurs_fail _
  · exact matches_idle

/-! ## Events

Documents, configurations and fetches do the same to servers that agree, too. Only an answer about
earlier analyses changes what is known of them, and both servers learn the same from it.
-/

theorem concurs_fireTimers : Concurs file path fireTimers := by
  intro left right agree
  rw [fireTimers, fireTimers, agree.debouncer]
  exact matches_each (fun timer _ => concurs_analyze timer.file) _ _
    { agree with debouncer := rfl }

/-- Servers that agree still agree when a file begins to wait. -/
theorem agree_waitFor {left right : LanguageServer} (agree : Agree file path left right)
    (waiting : Url) : Agree file path (left.waitFor waiting) (right.waitFor waiting) :=
  { agree with debouncer := congrArg (·.schedule waiting ()) agree.debouncer }

theorem concurs_schedule (files : List Url) : Concurs file path (schedule files) := by
  refine (matches_change fun left right agree => ?_).andThen concurs_fireTimers
  induction files generalizing left right with
  | nil => exact agree
  | cons waiting rest ih => exact ih _ _ (agree_waitFor agree waiting)

theorem concurs_configure (config : Config) (tokens : Tokens) :
    Concurs file path (change (configure config tokens)) :=
  matches_change fun _ _ agree => { agree with
    cache := { agree.cache with }
    debouncer := congrArg (·.setDelay config.analyzer.debounce) agree.debouncer
    engine := rfl
    binding := rfl }

theorem concurs_openText (opened : Url) (version : Int32) (content : String) :
    Concurs file path (change fun server =>
      { server with documents := server.documents.openText opened version content }) :=
  matches_change fun _ _ agree => { agree with
    documents := congrArg (·.openText opened version content) agree.documents }

theorem concurs_openDocument (opened : Url) (version : Int32) (content : String) :
    Concurs file path (openDocument opened version content) := by
  refine (concurs_openText opened version content).andThen ?_
  refine matches_inspect fun left right agree => ?_
  rw [agree.binding, agree.document?]
  split
  · exact concurs_beginFetch _ _ _ _
  · exact concurs_analyze opened

theorem concurs_changeDocument (changed : Url) (version : Int32) (contents : List String) :
    Concurs file path (changeDocument changed version contents) := by
  refine matches_inspect fun left right agree => ?_
  rw [agree.documents]
  split
  · exact (matches_change fun _ _ agree => { agree with documents := rfl }).andThen
      (concurs_schedule _)
  · exact matches_idle

theorem concurs_closeDocument (closed : Url) : Concurs file path (closeDocument closed) :=
  (matches_change fun _ _ agree => { agree with
    debouncer := congrArg (·.cancel closed) agree.debouncer
    documents := congrArg (·.close closed) agree.documents }).andThen
  (matches_onCache (Cache.concur_clear closed))

theorem concurs_closeFetch (number : Nat) : Concurs file path (change (closeFetch number)) :=
  matches_change fun _ _ agree => { agree with
    fetches := congrArg (·.filter fun fetch => fetch.number ≠ number) agree.fetches }

/-- What is learned of earlier analyses is the same for servers that agree. -/
theorem concurs_learn (asked : String) (answer : Option (List ServerIssue)) :
    Concurs file path (change (learn asked answer)) := by
  refine matches_change fun left right agree => ?_
  cases answer with
  | none => exact agree
  | some issues =>
      refine { agree with history := fun other different => ?_ }
      by_cases same : other = asked
      · subst same
        exact (History.get_update_self _ _ _).trans (History.get_update_self _ _ _).symm
      · exact (History.get_update_of_ne _ issues same).trans <|
          (agree.history other different).trans (History.get_update_of_ne _ issues same).symm

theorem concurs_endHistory (number : Nat) (answer : Option (List ServerIssue)) :
    Concurs file path (endHistory number answer) := by
  refine matches_inspect fun left right agree => ?_
  rw [agree.fetch?]
  split
  · exact (concurs_closeFetch number).andThen ((concurs_learn _ answer).andThen (concurs_analyze _))
  · exact matches_idle

theorem concurs_resume (pending : WaitingCommit) : Concurs file path (resume pending) :=
  (matches_onCache (Cache.concur_resume pending)).andThen (concurs_settle pending.file)

theorem concurs_endRefresh (number : Nat) (answer : Option (List TaintIssue)) :
    Concurs file path (endRefresh number answer) := by
  refine matches_inspect fun left right agree => ?_
  rw [agree.fetch?, agree.cache.running, agree.cache.waitingFor]
  split
  · split
    · exact (concurs_closeFetch number).andThen <|
        (matches_onCache (Cache.concur_endRefresh _ answer)).andThen <|
          matches_each fun pending _ => concurs_resume pending
    · exact concurs_closeFetch number
  · exact matches_idle

/-- Servers that agree on a file still do so after a move, unless the workspace is opened anew. -/
theorem concurs_happen {move : Move} (kept : ∀ root, move ≠ .openWorkspace root) :
    Concurs file path (happen move) := by
  cases move with
  | openWorkspace root => exact absurd rfl (kept root)
  | start config tokens =>
      refine (concurs_configure config tokens).andThen (matches_inspect fun left right agree => ?_)
      rw [agree.binding]
      exact matches_emit rfl
  | reconfigure config tokens =>
      refine (concurs_configure config tokens).andThen (matches_inspect fun left right agree => ?_)
      rw [agree.documents, agree.root]
      exact concurs_schedule _
  | embedEngine => exact matches_change fun _ _ agree => { agree with engine := rfl }
  | openDocument opened version content => exact concurs_openDocument opened version content
  | changeDocument changed version contents =>
      exact concurs_changeDocument changed version contents
  | saveDocument saved => exact concurs_schedule [saved]
  | closeDocument closed => exact concurs_closeDocument closed
  | passTime milliseconds =>
      exact (matches_change fun _ _ agree => { agree with
        debouncer := congrArg (·.advance milliseconds) agree.debouncer }).andThen concurs_fireTimers
  | reportIssue number issue => exact concurs_reportIssue number issue
  | endPass number succeeded => exact concurs_endPass number succeeded
  | endHistory number answer => exact concurs_endHistory number answer
  | endRefresh number answer => exact concurs_endRefresh number answer
  | bind binding => exact matches_change fun _ _ agree => { agree with binding := rfl }
  | openText opened version content => exact concurs_openText opened version content
  | fetchHistory fetched binding asked => exact concurs_beginFetch _ _ _ _
  | analyze analyzed => exact concurs_analyze analyzed
  | finishRefresh refresh answer =>
      rw [happen]
      refine matches_inspect fun left right agree => ?_
      simp only [agree.cache.possible_iff]
      split
      · exact matches_onCache (Cache.concur_endRefresh refresh answer)
      · exact matches_idle
  | resume pending =>
      rw [happen]
      refine matches_inspect fun left right agree => ?_
      simp only [agree.cache.possible_iff]
      split
      · exact concurs_resume pending
      · exact matches_idle

/-- Servers that agree on a file still do so after a run, and tell the same that concerns it. -/
theorem concurs_run {moves : List Move} (kept : ∀ root, .openWorkspace root ∉ moves) :
    Concurs file path (run moves) :=
  matches_each fun _ member => concurs_happen fun root same => kept root (same ▸ member)

end IssueRelay.LanguageServer
