import IssueRelay.Proofs.Cache.Independence
import IssueRelay.Proofs.LanguageServer.DebouncedPass

/-!
# Moves that leave a file alone

A move is about the files whose passes it begins or ends, for which it reports or commits issues,
and which it refreshes or closes. Of any other file the passes under way and both sets of issues
stay as they are, whatever happens (`IssueRelay.LanguageServer.aside_happen`).
-/

namespace IssueRelay

/-- The identifier that comes so many places after another. -/
def IssueId.after (id : IssueId) (places : Nat) : IssueId :=
  ⟨id.number + UInt64.ofNat places⟩

/-- No places after an identifier is the identifier itself. -/
theorem IssueId.after_zero (id : IssueId) : id.after 0 = id := by
  simp [after]

/-- The identifier after one is one place farther. -/
theorem IssueId.next_after (id : IssueId) (places : Nat) :
    (id.after places).next = id.after (places + 1) := by
  rw [after, next, after, UInt64.ofNat_add, UInt64.add_assoc]
  rfl

/-- Places after an identifier add up. -/
theorem IssueId.after_after (id : IssueId) (first second : Nat) :
    (id.after first).after second = id.after (first + second) := by
  rw [after, after, after, UInt64.ofNat_add, UInt64.add_assoc]

/-- Identifiers come back only after all the others. -/
theorem IssueId.after_ne {id : IssueId} {first second : Nat} (earlier : first < second)
    (few : second < UInt64.size) : id.after first ≠ id.after second := by
  intro same
  have numbers : UInt64.ofNat first = UInt64.ofNat second :=
    (UInt64.add_right_inj id.number).mp (congrArg IssueId.number same)
  have values := congrArg UInt64.toNat numbers
  rw [UInt64.toNat_ofNat_of_lt' (earlier.trans few), UInt64.toNat_ofNat_of_lt' few] at values
  exact earlier.ne values

namespace LanguageServer

open Transition

namespace Move

/-- The files that a move is about. -/
def files (server : LanguageServer) : Move → List Url
  | .openDocument file _ _ | .closeDocument file | .analyze file => [file]
  | .reportIssue number _ | .endPass number _ =>
    (server.pass? number).toList.map fun pass => pass.document.uri
  | .endHistory number _ =>
    match server.purpose? number with
    | some (.history file _) => [file]
    | _ => []
  | .endRefresh number _ => (server.refresh? number).toList.map Refresh.file
  | .finishRefresh refresh _ => [refresh.file]
  | .resume pending => [pending.file]
  | move => (move.debounced server).map Document.uri

/-- How many issues a move reports at most. -/
def reports : Move → Nat
  | .reportIssue _ _ => 1
  | _ => 0

end Move

/-- Nothing has happened to a file since a server was in a state, while at most so many issues were
reported on other files. -/
structure Aside (file : Url) (limit : Nat) (first server : LanguageServer)
    (past : List Effect) : Prop where
  opened : first.documents.contains file = true → server.documents.contains file = true
  passes : server.passes.filter (·.document.uri = file) =
    first.passes.filter (·.document.uri = file)
  inProgress : server.cache.inProgress.get? file = first.cache.inProgress.get? file
  committed : server.cache.committed.get? file = first.cache.committed.get? file
  numbered : ∃ made ≤ limit, server.cache.nextId = first.cache.nextId.after made

section Aside

variable {file : Url} {limit : Nat} {first server : LanguageServer} {past : List Effect}

/-- Nothing has happened to a file in no time. -/
theorem Aside.refl (file : Url) (limit : Nat) (server : LanguageServer) (past : List Effect) :
    Aside file limit server server past :=
  ⟨id, rfl, rfl, rfl, 0, Nat.zero_le limit, (IssueId.after_zero _).symm⟩

/-- Nothing happens to any file when texts, passes and issues stay as they are. -/
theorem Aside.of_same (aside : Aside file limit first server past) {other : LanguageServer}
    {effects : List Effect} (documents : other.documents = server.documents)
    (passes : other.passes = server.passes)
    (inProgress : other.cache.inProgress = server.cache.inProgress)
    (committed : other.cache.committed = server.cache.committed)
    (nextId : other.cache.nextId = server.cache.nextId) : Aside file limit first other effects where
  opened := by
    rw [documents]
    exact aside.opened
  passes := by
    rw [passes]
    exact aside.passes
  inProgress := by
    rw [inProgress]
    exact aside.inProgress
  committed := by
    rw [committed]
    exact aside.committed
  numbered := by
    rw [nextId]
    exact aside.numbered

/-- An action on another file leaves this one, and takes one identifier at most. -/
theorem Aside.act (aside : Aside file limit first server past) (action : Cache.Action)
    (elsewhere : action.subject? ≠ some file) :
    Aside file (limit + 1) first (onCache (Cache.act action) server).1
      (past ++ (onCache (Cache.act action) server).2) := by
  obtain ⟨opened, passes, inProgress, committed, made, few, numbered⟩ := aside
  obtain ⟨fetches, nextFetch, left⟩ := onCache_fst server (Cache.act action)
  obtain ⟨sameProgress, sameCommitted⟩ := Cache.buffers_act_of_elsewhere elsewhere
  rw [left]
  refine ⟨opened, passes, sameProgress.trans inProgress, sameCommitted.trans committed, ?_⟩
  rcases Cache.nextId_act server.cache action with ⟨_, _, _, next⟩ | ⟨_, same⟩
  · exact ⟨made + 1, Nat.succ_le_succ few, by rw [next, numbered, IssueId.next_after]⟩
  · exact ⟨made, few.trans (Nat.le_succ limit), same.trans numbered⟩

/-! ## What passes leave alone

All that a pass over another file does is done to the cache by actions on that file, or to the
passes over it.
-/

/-- An action on another file that is no report takes no identifier. -/
theorem aside_act (action : Cache.Action) (elsewhere : action.subject? ≠ some file)
    (silent : ∀ cache, action.reported? cache = none) :
    Preserves (Aside file limit first) (onCache (Cache.act action)) := by
  intro server past aside
  have numbered := aside.numbered
  obtain ⟨opened, passes, inProgress, committed, _⟩ := aside.act action elsewhere
  refine ⟨opened, passes, inProgress, committed, ?_⟩
  obtain ⟨fetches, nextFetch, left⟩ := onCache_fst server (Cache.act action)
  rw [left]
  rcases Cache.nextId_act server.cache action with ⟨_, reported, _⟩ | ⟨_, same⟩
  · rw [silent] at reported
    cases reported
  · rw [same]
    exact numbered

/-- Refreshes leave the sets of issues of every file. -/
theorem aside_finish (refresh : Refresh) (answer : Option (List TaintIssue)) :
    Preserves (Aside file limit first) (onCache (Cache.endRefresh refresh answer)) := by
  intro server past aside
  obtain ⟨fetches, nextFetch, left⟩ := onCache_fst server (Cache.endRefresh refresh answer)
  obtain ⟨taint, seen, ends⟩ := Cache.endRefresh_fst server.cache refresh answer
  rw [left, ends]
  exact aside.of_same rfl rfl rfl rfl rfl

section Elsewhere

variable {other : Url} (different : other ≠ file)

include different

theorem aside_settle : Preserves (Aside file limit first) (settle other) := by
  refine ensures_inspect fun server => ?_
  split
  · exact preserves_idle
  · exact aside_act (.clear other) (mt Option.some.inj different) fun _ => rfl

theorem aside_succeed (ticket : Nat) :
    Preserves (Aside file limit first) (succeed other ticket) := by
  have succeeds : Preserves (Aside file limit first)
      (onCache (Cache.act (.succeed other ticket))) :=
    aside_act _ (mt Option.some.inj different) fun _ => rfl
  refine ensures_inspect fun server => succeeds.andThen ?_
  split
  · exact preserves_idle
  · exact aside_settle different

theorem aside_fail : Preserves (Aside file limit first) (fail other) := by
  have fails : Preserves (Aside file limit first) (onCache (Cache.act (.fail other))) :=
    aside_act _ (mt Option.some.inj different) fun _ => rfl
  exact fails.andThen (aside_settle different)

end Elsewhere

theorem aside_runPass {pass : Pass} (different : pass.document.uri ≠ file) :
    Preserves (Aside file limit first) (runPass pass) := by
  have engages : Preserves (Aside file limit first)
      (change fun server => { server with passes := server.passes ++ [pass] }) := by
    rintro server past ⟨opened, passes, inProgress, committed, numbered⟩
    refine ⟨opened, ?_, inProgress, committed, numbered⟩
    rw [change_apply, List.filter_append, List.filter_singleton, decide_eq_false different]
    exact (List.append_nil _).trans passes
  have hands : ∀ engine, Preserves (Aside file limit first) (emit [.beginPass pass engine]) :=
    fun _ _ _ aside => aside.of_same rfl rfl rfl rfl rfl
  refine ensures_inspect fun server => ?_
  split
  · exact aside_succeed different pass.number
  · exact engages.andThen (hands server.engine)

theorem aside_beginPass {document : Document} (different : document.uri ≠ file) :
    Preserves (Aside file limit first) (beginPass document) := by
  have counts : Preserves (Aside file limit first)
      (change fun server => { server with nextPass := server.nextPass + 1 }) :=
    fun _ _ aside => aside.of_same rfl rfl rfl rfl rfl
  have starts : Preserves (Aside file limit first)
      (onCache (Cache.act (.start document.uri))) :=
    aside_act _ (mt Option.some.inj different) fun _ => rfl
  have refreshes : ∀ binding,
      Preserves (Aside file limit first) (onCache (Cache.schedule binding [document])) := by
    intro binding
    have single : Cache.schedule binding [document] = Cache.act (.schedule binding document) :=
      andThen_idle _
    rw [single]
    exact aside_act _ (mt Option.some.inj different) fun _ => rfl
  refine ensures_inspect fun server =>
    counts.andThen (starts.andThen (Ensures.andThen ?_ (aside_runPass different)))
  split
  · exact refreshes _
  · exact preserves_idle

theorem aside_analyze {other : Url} (different : other ≠ file) :
    Preserves (Aside file limit first) (analyze other) := by
  refine ensures_inspect fun server => ?_
  split
  · rename_i document found
    obtain ⟨stored, _, rfl⟩ := Option.map_eq_some_iff.mp found
    exact aside_beginPass different
  · exact preserves_idle

theorem aside_resume {pending : WaitingCommit} (different : pending.file ≠ file) :
    Preserves (Aside file limit first) (resume pending) := by
  have commits : Preserves (Aside file limit first) (onCache (Cache.act (.resume pending))) :=
    aside_act _ (mt Option.some.inj different) fun _ => rfl
  exact commits.andThen (aside_settle different)

/-! ## What moves leave alone -/

/-- Storing a text of any file keeps the file aside: it may only become open. -/
theorem Aside.openText (aside : Aside file limit first server past) (other : Url)
    (version : Int32) (content : String) :
    Aside file limit first
      { server with documents := server.documents.openText other version content } past where
  opened := by
    intro before
    rw [DocumentStore.contains_openText, aside.opened before, Bool.or_true]
  passes := aside.passes
  inProgress := aside.inProgress
  committed := aside.committed
  numbered := aside.numbered

/-- Before tasks run, only texts, tasks and the configuration change. -/
theorem aside_prepare {move : Move} (fires : move.fires server = true) :
    Aside file limit server (move.prepare server) [] := by
  have same := Aside.refl file limit server []
  cases move with
  | changeDocument changed version contents =>
      obtain ⟨documents, updated⟩ := Option.isSome_iff_exists.mp fires
      obtain ⟨content, _, accepted⟩ := Option.bind_eq_some_iff.mp updated
      have edited : (Move.changeDocument changed version contents).prepare server =
          { server with documents }.waitFor changed := edit_of_updated server updated
      rw [edited, DocumentStore.eq_openText_of_update? accepted]
      exact (same.openText changed version content).of_same rfl rfl rfl rfl rfl
  | reconfigure config tokens =>
      obtain ⟨debouncer, left⟩ := foldl_waitFor
        (((configure config tokens server).documents.snapshots server.root).map Document.uri)
        (configure config tokens server)
      have configured : (Move.reconfigure config tokens).prepare server =
          { configure config tokens server with debouncer } := left
      rw [configured]
      exact same.of_same rfl rfl rfl rfl rfl
  | saveDocument _ | passTime _ => exact same.of_same rfl rfl rfl rfl rfl
  | _ => cases fires

/-- The tasks that run begin passes over other files. -/
theorem aside_of_fires {move : Move} (fires : move.fires server = true)
    (elsewhere : ∀ document ∈ move.debounced server, document.uri ≠ file) :
    Aside file limit server (happen move server).1 (happen move server).2 := by
  rw [happen_of_fires server fires]
  have prepared : Aside file limit server
      { move.prepare server with debouncer := (move.prepare server).debouncer.fire.1 } [] :=
    (aside_prepare fires).of_same rfl rfl rfl rfl rfl
  exact preserves_each (fun document due => aside_beginPass (elsewhere document due)) _ _ prepared

theorem aside_openDocument {other : Url} (different : other ≠ file) (version : Int32)
    (content : String) :
    Preserves (Aside file limit first) (openDocument other version content) := by
  have opens : Preserves (Aside file limit first) (change fun server =>
      { server with documents := server.documents.openText other version content }) :=
    fun _ _ aside => (aside.openText other version content).of_same rfl rfl rfl rfl rfl
  refine opens.andThen (ensures_inspect fun server => ?_)
  split
  · exact fun _ _ aside => aside.of_same rfl rfl rfl rfl rfl
  · exact aside_analyze different

/-- Closing another file keeps the file aside. -/
theorem Aside.close (aside : Aside file limit first server past) {other : Url}
    (different : other ≠ file) :
    Aside file limit first
      { server with
        debouncer := server.debouncer.cancel other
        documents := server.documents.close other } past where
  opened := by
    intro before
    rw [DocumentStore.contains_close, aside.opened before, decide_eq_true different.symm]
    rfl
  passes := aside.passes
  inProgress := aside.inProgress
  committed := aside.committed
  numbered := aside.numbered

/-- The pass with a number is the only one that leaves its engine when it ends. -/
theorem aside_endPass {watched : Option Url} (tidy : Tidy watched none server past)
    {number : Nat} {pass : Pass} (found : server.pass? number = some pass)
    (different : pass.document.uri ≠ file) (succeeded : Bool) :
    Aside file limit server (endPass number succeeded server).1
      (endPass number succeeded server).2 := by
  obtain ⟨member, rfl⟩ := mem_of_pass? found
  have left : Aside file limit server
      { server with passes := server.passes.filter (·.number ≠ pass.number) } [] := by
    refine { Aside.refl file limit server [] with passes := ?_ }
    rw [List.filter_filter]
    apply List.filter_congr
    intro other present
    by_cases numbers : other.number = pass.number
    · obtain rfl := List.inj_on_of_nodup_map tidy.distinct present member numbers
      simp [different]
    · simp [numbers]
  rw [endPass, inspect_apply, found]
  dsimp only
  rw [andThen_apply, change_apply]
  split
  · exact aside_succeed different pass.number _ [] left
  · exact aside_fail different _ [] left

/-- The answer to a refresh under way ends it, and the commits that have waited for it are made. -/
theorem endRefresh_of_refresh? {number : Nat} {refresh : Refresh}
    (asks : server.refresh? number = some refresh) (answer : Option (List TaintIssue)) :
    endRefresh number answer server =
      ((onCache (Cache.endRefresh refresh answer)).andThen
        (each resume (server.cache.waitingFor refresh.generation)))
        (closeFetch number server) := by
  obtain ⟨⟨own, opened⟩, found⟩ := fetch?_of_refresh? asks
  rw [endRefresh, inspect_apply, opened]
  dsimp only
  rw [found]
  rfl

/-- A fetch that is not for a refresh under way is forgotten at most. -/
theorem endRefresh_of_none {number : Nat} (idle : server.refresh? number = none)
    (answer : Option (List TaintIssue)) :
    endRefresh number answer server = (server, []) ∨
      endRefresh number answer server = (closeFetch number server, []) := by
  rw [endRefresh, inspect_apply]
  cases opened : server.fetch? number with
  | none => exact .inl rfl
  | some fetch =>
      obtain ⟨own, purpose⟩ := fetch
      cases purpose with
      | history file path => exact .inl rfl
      | refresh generation =>
          rw [refresh?, purpose?, opened] at idle
          dsimp only [Option.map_some] at idle ⊢
          rw [idle]
          exact .inr rfl

/-- The commits that are made when a refresh has ended are commits of its file. -/
theorem aside_endRefresh {watched : Option Url} (tidy : Tidy watched none server past)
    {number : Nat} (different : ∀ refresh, server.refresh? number = some refresh →
      refresh.file ≠ file) (answer : Option (List TaintIssue)) :
    Aside file limit server (endRefresh number answer server).1
      (endRefresh number answer server).2 := by
  have same := Aside.refl file limit server []
  have closed : Aside file limit server (closeFetch number server) [] :=
    same.of_same rfl rfl rfl rfl rfl
  cases asks : server.refresh? number with
  | none =>
      rcases endRefresh_of_none asks answer with ends | ends <;> rw [ends]
      · exact same
      · exact closed
  | some refresh =>
      obtain ⟨live, _⟩ := Cache.mem_running_of_find? (fetch?_of_refresh? asks).2
      obtain ⟨chronicle⟩ := tidy.reached
      have commits : Preserves (Aside file limit server)
          (each resume (server.cache.waitingFor refresh.generation)) := by
        refine preserves_each fun pending member => aside_resume ?_
        rw [chronicle.file_of_waitingFor live pending member]
        exact different refresh asks
      rw [endRefresh_of_refresh? asks]
      exact ((aside_finish refresh answer).andThen commits) _ [] closed

/-- An answer about earlier analyses of another file leaves the file aside. -/
theorem aside_endHistory {number : Nat}
    (different : ∀ other path, server.purpose? number = some (.history other path) →
      other ≠ file) (answer : Option (List ServerIssue)) :
    Aside file limit server (endHistory number answer server).1
      (endHistory number answer server).2 := by
  have same := Aside.refl file limit server []
  rw [endHistory, inspect_apply]
  cases opened : server.fetch? number with
  | none => exact same
  | some fetch =>
      obtain ⟨own, purpose⟩ := fetch
      cases purpose with
      | history other path =>
          have elsewhere := different other path (by rw [purpose?, opened]; rfl)
          have learned : Aside file limit server
              (learn path answer (closeFetch number server)) [] := by
            cases answer <;> exact same.of_same rfl rfl rfl rfl rfl
          exact aside_analyze elsewhere _ [] learned
      | refresh generation => exact same

/-- **Moves that leave a file alone.** Of a file that a move is not about, the passes under way and
both sets of issues stay as they are; a report on another file takes one identifier. -/
theorem aside_happen {watched : Option Url} (tidy : Tidy watched none server past) {move : Move}
    (elsewhere : file ∉ move.files server) :
    Aside file move.reports server (happen move server).1 (happen move server).2 := by
  have same : Aside file 0 server server [] := Aside.refl file 0 server []
  have unlike : ∀ {other}, move.files server = [other] → other ≠ file := by
    rintro other about rfl
    rw [about] at elsewhere
    exact elsewhere (List.mem_singleton_self other)
  have debounced : move.fires server = true →
      move.files server = (move.debounced server).map Document.uri →
      Aside file 0 server (happen move server).1 (happen move server).2 := by
    intro fires about
    refine aside_of_fires fires fun document due own => elsewhere ?_
    rw [about, ← own]
    exact List.mem_map_of_mem due
  cases move with
  | openWorkspace root => exact same.of_same rfl rfl rfl rfl rfl
  | start config tokens => exact same.of_same rfl rfl rfl rfl rfl
  | reconfigure config tokens => exact debounced rfl rfl
  | embedEngine => exact same.of_same rfl rfl rfl rfl rfl
  | openDocument other version content =>
      exact aside_openDocument (unlike rfl) version content server [] same
  | changeDocument changed version contents =>
      cases fires : (Move.changeDocument changed version contents).fires server with
      | true => exact debounced fires rfl
      | false =>
          have refused := Option.isNone_iff_eq_none.mp (Option.isSome_eq_false_iff.mp fires)
          rw [happen, changeDocument_of_refused server refused]
          exact same
  | saveDocument other => exact debounced rfl rfl
  | closeDocument other =>
      exact aside_act (.clear other) (mt Option.some.inj (unlike rfl)) (fun _ => rfl) _ []
        (same.close (unlike rfl))
  | passTime milliseconds => exact debounced rfl rfl
  | reportIssue number issue =>
      rw [happen, reportIssue, inspect_apply]
      cases found : server.pass? number with
      | none => exact Aside.refl file 1 server []
      | some pass =>
          have different : pass.document.uri ≠ file := unlike (by rw [Move.files, found]; rfl)
          dsimp only
          split
          · exact same.act (.reportTracked pass.document issue _)
              (mt Option.some.inj different)
          · exact same.act (.report pass.document issue) (mt Option.some.inj different)
  | endPass number succeeded =>
      cases found : server.pass? number with
      | none =>
          rw [happen, endPass, inspect_apply, found]
          exact same
      | some pass =>
          exact aside_endPass tidy found (unlike (by rw [Move.files, found]; rfl)) succeeded
  | endHistory number answer =>
      exact aside_endHistory (fun other path asks => unlike (by rw [Move.files, asks])) answer
  | endRefresh number answer =>
      exact aside_endRefresh tidy (fun refresh asks => unlike (by rw [Move.files, asks]; rfl))
        answer
  | bind binding => exact same.of_same rfl rfl rfl rfl rfl
  | openText other version content =>
      exact (same.openText other version content).of_same rfl rfl rfl rfl rfl
  | fetchHistory other binding path => exact same.of_same rfl rfl rfl rfl rfl
  | analyze other => exact aside_analyze (unlike rfl) _ [] same
  | finishRefresh refresh answer =>
      rw [happen, inspect_apply]
      split
      · exact aside_finish refresh answer _ [] same
      · exact same
  | resume pending =>
      rw [happen, inspect_apply]
      split
      · exact aside_resume (unlike rfl) _ [] same
      · exact same

end Aside

end LanguageServer
end IssueRelay
