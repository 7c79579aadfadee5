import IssueRelay.Proofs.Cache.Refresh
import IssueRelay.Proofs.LanguageServer.Relay
import IssueRelay.Proofs.Transition

/-!
# The beginning of a pass

A pass leaves the texts and the sleeping tasks of a server alone. When it begins it takes the next
number, drops what earlier passes have reported on its file and not committed, and has the taint
issues of the file refreshed beside it if there is a binding. An engine is handed the pass then;
without one the pass has succeeded already (`IssueRelay.LanguageServer.starts_beginPass`).
-/

namespace IssueRelay.LanguageServer

open Transition

/-! ## What passes leave alone

Passes begin and end without a look at the sleeping tasks, and they read the open texts without
changing them: a text comes from the editor, and a task from a change of it.
-/

/-- A server still has the root, the open texts and the sleeping tasks of another. -/
structure Still (first server : LanguageServer) (past : List Effect) : Prop where
  root : server.root = first.root
  documents : server.documents = first.documents
  debouncer : server.debouncer = first.debouncer

section Still

variable {first : LanguageServer}

/-- A change that leaves the root, the open texts and the sleeping tasks leaves the server still. -/
theorem still_change {update : LanguageServer → LanguageServer}
    (root : ∀ server, (update server).root = server.root)
    (documents : ∀ server, (update server).documents = server.documents)
    (debouncer : ∀ server, (update server).debouncer = server.debouncer) :
    Preserves (Still first) (change update) :=
  fun server _ still => ⟨(root server).trans still.root,
    (documents server).trans still.documents, (debouncer server).trans still.debouncer⟩

theorem still_emit (effects : List Effect) : Preserves (Still first) (emit effects) :=
  fun _ _ still => ⟨still.root, still.documents, still.debouncer⟩

/-- What happens in the cache leaves the server still. -/
theorem still_onCache (step : Transition Cache Cache.Effect) :
    Preserves (Still first) (onCache step) := by
  intro server past still
  obtain ⟨fetches, nextFetch, left⟩ := onCache_fst server step
  rw [left]
  exact ⟨still.root, still.documents, still.debouncer⟩

theorem still_settle (file : Url) : Preserves (Still first) (settle file) := by
  refine ensures_inspect fun server => ?_
  split
  · exact preserves_idle
  · exact still_onCache _

theorem still_succeed (file : Url) (ticket : Nat) :
    Preserves (Still first) (succeed file ticket) := by
  refine ensures_inspect fun server => (still_onCache _).andThen ?_
  split
  · exact preserves_idle
  · exact still_settle file

theorem still_fail (file : Url) : Preserves (Still first) (fail file) :=
  (still_onCache _).andThen (still_settle file)

theorem still_beginFetch (purpose : FetchPurpose) (endpoint : Endpoint) (binding : Binding)
    (path : String) : Preserves (Still first) (beginFetch purpose endpoint binding path) :=
  fun _ _ still => ⟨still.root, still.documents, still.debouncer⟩

theorem still_runPass (pass : Pass) : Preserves (Still first) (runPass pass) := by
  refine ensures_inspect fun server => ?_
  split
  · exact still_succeed _ _
  · apply Ensures.andThen
    · exact still_change (fun _ => rfl) (fun _ => rfl) fun _ => rfl
    · exact still_emit _

theorem still_beginPass (document : Document) : Preserves (Still first) (beginPass document) := by
  refine ensures_inspect fun server => ?_
  apply Ensures.andThen
  · exact still_change (fun _ => rfl) (fun _ => rfl) fun _ => rfl
  refine (still_onCache _).andThen (Ensures.andThen ?_ (still_runPass _))
  split
  · exact still_onCache _
  · exact preserves_idle

theorem still_analyze (file : Url) : Preserves (Still first) (analyze file) := by
  refine ensures_inspect fun server => ?_
  split
  · exact still_beginPass _
  · exact preserves_idle

theorem still_closeFetch (number : Nat) : Preserves (Still first) (change (closeFetch number)) :=
  still_change (fun _ => rfl) (fun _ => rfl) fun _ => rfl

theorem still_resume (pending : WaitingCommit) : Preserves (Still first) (resume pending) :=
  (still_onCache _).andThen (still_settle _)

theorem still_endPass (number : Nat) (succeeded : Bool) :
    Preserves (Still first) (endPass number succeeded) := by
  refine ensures_inspect fun server => ?_
  split
  · apply Ensures.andThen
    · exact still_change (fun _ => rfl) (fun _ => rfl) fun _ => rfl
    split
    · exact still_succeed _ _
    · exact still_fail _
  · exact preserves_idle

theorem still_endHistory (number : Nat) (answer : Option (List ServerIssue)) :
    Preserves (Still first) (endHistory number answer) := by
  have learns : ∀ path, Preserves (Still first) (change (learn path answer)) := by
    intro path
    cases answer <;> exact still_change (fun _ => rfl) (fun _ => rfl) fun _ => rfl
  refine ensures_inspect fun server => ?_
  split
  · exact (still_closeFetch number).andThen ((learns _).andThen (still_analyze _))
  · exact preserves_idle

theorem still_endRefresh (number : Nat) (answer : Option (List TaintIssue)) :
    Preserves (Still first) (endRefresh number answer) := by
  refine ensures_inspect fun server => ?_
  split
  · split
    · exact (still_closeFetch number).andThen <|
        (still_onCache _).andThen (preserves_each fun _ _ => still_resume _)
    · exact still_closeFetch number
  · exact preserves_idle

end Still

/-! ## The beginning of a pass -/

/-- The refresh beside a pass, if there is a binding. -/
def refreshBeside (document : Document) : Option Binding → Transition LanguageServer Effect
  | some binding => onCache (Cache.schedule binding [document])
  | none => idle

/-- What is done before a pass is handed to its engine. -/
def readyPass (document : Document) : Transition LanguageServer Effect :=
  inspect fun server =>
    (change fun server => { server with nextPass := server.nextPass + 1 }).andThen <|
      (onCache (Cache.start document.uri)).andThen (refreshBeside document server.binding)

/-- The next pass over a document. -/
def nextPassOver (server : LanguageServer) (document : Document) : Pass where
  number := server.nextPass
  document
  tracked := server.binding.isSome

section Begin

variable {server : LanguageServer} {document : Document}

/-- A pass begins by being readied and then run, under the number that was next before. -/
theorem beginPass_eq (server : LanguageServer) (document : Document) :
    beginPass document server =
      ((readyPass document).andThen (runPass (server.nextPassOver document))) server := by
  simp only [beginPass, readyPass, inspect_apply, andThen_apply, List.append_assoc]
  rfl

/-- The refresh beside a pass changes what is recorded of refreshes and fetches only. -/
theorem refreshBeside_fst (server : LanguageServer) (document : Document)
    (binding : Option Binding) :
    ∃ registered running nextGeneration fetches nextFetch,
      (refreshBeside document binding server).1 =
        { server with
          cache := { server.cache with registered, running, nextGeneration }
          fetches
          nextFetch } := by
  cases binding with
  | none => exact ⟨_, _, _, _, _, rfl⟩
  | some binding =>
      have single : Cache.schedule binding [document] = Cache.scheduleOne binding document :=
        andThen_idle _
      obtain ⟨fetches, nextFetch, left⟩ := onCache_fst server (Cache.scheduleOne binding document)
      rw [refreshBeside, single, left]
      cases updating : server.cache.isUpdating document.uri with
      | true =>
          rw [Cache.scheduleOne_of_updating _ binding updating]
          exact ⟨_, _, _, _, _, rfl⟩
      | false =>
          rw [Cache.scheduleOne_of_idle _ binding updating]
          exact ⟨_, _, _, _, _, rfl⟩

/-- What is left when a pass is ready is what the refresh beside it leaves. -/
theorem readyPass_eq_refreshBeside (server : LanguageServer) (document : Document) :
    readyPass document server =
      refreshBeside document server.binding
        { server with
          nextPass := server.nextPass + 1
          cache := Cache.dropPass document.uri server.cache } := by
  have starts : onCache (Cache.start document.uri)
      { server with nextPass := server.nextPass + 1 } =
        ({ server with
            nextPass := server.nextPass + 1
            cache := Cache.dropPass document.uri server.cache }, []) :=
    onCache_of_silent _ rfl
  rw [readyPass, inspect_apply, andThen_apply, change_apply, andThen_apply, starts]
  rfl

/-- Readying a pass drops what is in progress for its file and counts the pass; all else that it
changes is recorded of refreshes and fetches. -/
theorem readyPass_fst (server : LanguageServer) (document : Document) :
    ∃ registered running nextGeneration fetches nextFetch,
      (readyPass document server).1 =
        { server with
          cache :=
            { Cache.dropPass document.uri server.cache with registered, running, nextGeneration }
          nextPass := server.nextPass + 1
          fetches
          nextFetch } := by
  rw [readyPass_eq_refreshBeside]
  exact refreshBeside_fst _ document server.binding

/-- The refresh beside a pass is under way, if there is a binding. -/
theorem isUpdating_refreshBeside (server : LanguageServer) (document : Document)
    (binding : Option Binding) :
    (refreshBeside document binding server).1.cache.isUpdating document.uri =
      (binding.isSome || server.cache.isUpdating document.uri) := by
  cases binding with
  | none => rfl
  | some binding =>
      have single : Cache.schedule binding [document] = Cache.scheduleOne binding document :=
        andThen_idle _
      obtain ⟨fetches, nextFetch, left⟩ := onCache_fst server (Cache.scheduleOne binding document)
      rw [refreshBeside, single, left, Option.isSome_some, Bool.true_or]
      exact Cache.isUpdating_scheduleOne_self _ binding document

/-- With an engine, a pass is begun and under way. -/
theorem beginPass_of_engine (document : Document) (engine : server.engine ≠ .program .none) :
    beginPass document server =
      ({ (readyPass document server).1 with
          passes := server.passes ++ [server.nextPassOver document] },
        (readyPass document server).2 ++
          [.beginPass (server.nextPassOver document) server.engine]) := by
  obtain ⟨registered, running, nextGeneration, fetches, nextFetch, left⟩ :=
    readyPass_fst server document
  rw [beginPass_eq, andThen_apply, runPass, inspect_apply, left, if_neg engine]
  rfl

end Begin

/-! ## What is begun -/

/-- The passes that engines are handed among effects. -/
def handed (effects : List Effect) : List (Pass × Engine) :=
  effects.filterMap fun
    | .beginPass pass engine => some (pass, engine)
    | _ => none

/-- The passes handed to engines are found part by part. -/
@[simp] theorem handed_append (left right : List Effect) :
    handed (left ++ right) = handed left ++ handed right :=
  List.filterMap_append

/-- What happens to the cache hands no pass to an engine. -/
theorem handed_onCache (server : LanguageServer) (step : Transition Cache Cache.Effect) :
    handed (onCache step server).2 = [] := by
  have relays : ∀ (effects : List Cache.Effect) (server : LanguageServer),
      handed (each relay effects server).2 = [] := by
    intro effects
    induction effects with
    | nil => exact fun _ => rfl
    | cons effect rest ih =>
        intro server
        have first : handed (relay effect server).2 = [] := by
          cases effect <;> rfl
        rw [each_cons, andThen_apply, handed_append, first, ih, List.append_nil]
  exact relays (step server.cache).2 { server with cache := (step server.cache).1 }

/-- The beginning of a pass over a document of an open file. The pass takes the next number, and
what earlier passes have reported on the file and not committed is dropped. If there is a binding,
the file is being refreshed. With an engine, the pass is under way and the engine has been handed
it. Without one it has succeeded already: its commit waits if the file is being refreshed, and
otherwise the file has no issues of its own and is shown so. -/
structure Starts (document : Document) (server after : LanguageServer) (effects : List Effect) :
    Prop where
  still : Still server after effects
  engine : after.engine = server.engine
  binding : after.binding = server.binding
  counted : after.nextPass = server.nextPass + 1
  dropped : after.cache.inProgress.get? document.uri = none
  refreshed : after.cache.isUpdating document.uri =
    (server.binding.isSome || server.cache.isUpdating document.uri)
  underWay : server.engine ≠ .program .none →
    after.passes = server.passes ++ [server.nextPassOver document] ∧
      handed effects = [(server.nextPassOver document, server.engine)] ∧
      after.cache.committed = server.cache.committed
  waits : server.engine = .program .none → ∀ generation,
    after.cache.unfinished? document.uri = some generation →
    after.passes = server.passes ∧ handed effects = [] ∧
      after.cache.committed = server.cache.committed ∧
      after.cache.waiting =
        server.cache.waiting ++ [{ ticket := server.nextPass, file := document.uri, generation }]
  succeeds : server.engine = .program .none → after.cache.isUpdating document.uri = false →
    after.passes = server.passes ∧ after.cache.committed.get? document.uri = none ∧
      effects = [.publish document.uri (after.cache.shown document.uri)]

section Starts

variable {server : LanguageServer} {document : Document}

/-- No engine is handed anything while a pass is readied. -/
theorem handed_readyPass (server : LanguageServer) (document : Document) :
    handed (readyPass document server).2 = [] := by
  rw [readyPass_eq_refreshBeside]
  cases server.binding with
  | none => rfl
  | some binding => exact handed_onCache _ _

/-- An open file is not forgotten when it is settled. -/
theorem onCache_andThen_settle (step : Transition Cache Cache.Effect) {file : Url}
    (opened : server.documents.contains file = true) :
    (onCache step).andThen (settle file) server = onCache step server := by
  obtain ⟨fetches, nextFetch, left⟩ := onCache_fst server step
  have stays : (onCache step server).1.documents.contains file = true := by
    rw [left]
    exact opened
  rw [andThen_apply, settle, inspect_apply, if_pos stays]
  exact Prod.ext rfl (List.append_nil _)

/-- When a pass over an open file succeeds, nothing but its commit happens. -/
theorem succeed_of_opened {file : Url} (opened : server.documents.contains file = true)
    (ticket : Nat) : succeed file ticket server = onCache (Cache.succeed file ticket) server := by
  rw [succeed, inspect_apply]
  split
  · rw [andThen_idle]
  · exact onCache_andThen_settle _ opened

/-- Without an engine, a pass over an open file succeeds as soon as it is ready. -/
theorem beginPass_of_missing (opened : server.documents.contains document.uri = true)
    (missing : server.engine = .program .none) :
    beginPass document server =
      (readyPass document).andThen (onCache (Cache.succeed document.uri server.nextPass))
        server := by
  obtain ⟨registered, running, nextGeneration, fetches, nextFetch, left⟩ :=
    readyPass_fst server document
  have stays : (readyPass document server).1.documents.contains document.uri = true := by
    rw [left]
    exact opened
  have same : (readyPass document server).1.engine = .program .none := by
    rw [left]
    exact missing
  rw [beginPass_eq, andThen_apply, andThen_apply, runPass, inspect_apply, if_pos same,
    ← succeed_of_opened stays]
  rfl

/-- The commit of a pass without an engine waits while its file is being refreshed. -/
theorem beginPass_of_unfinished (opened : server.documents.contains document.uri = true)
    (missing : server.engine = .program .none) {generation : Nat}
    (unfinished : (readyPass document server).1.cache.unfinished? document.uri = some generation) :
    let ready := (readyPass document server).1
    beginPass document server =
      ({ ready with
          cache :=
            { ready.cache with
              waiting := ready.cache.waiting ++
                [{ ticket := server.nextPass, file := document.uri, generation }] } },
        (readyPass document server).2) := by
  intro ready
  have suspended := onCache_of_silent ready
    (Cache.succeed_of_unfinished _ server.nextPass unfinished)
  rw [beginPass_of_missing opened missing, andThen_apply, suspended, List.append_nil]

/-- A pass without an engine leaves its file without issues of its own, and shows it, if the file is
not being refreshed. -/
theorem beginPass_of_finished (opened : server.documents.contains document.uri = true)
    (missing : server.engine = .program .none)
    (finished : (readyPass document server).1.cache.unfinished? document.uri = none) :
    let ready := (readyPass document server).1
    let committed := ready.cache.committed.erase document.uri
    beginPass document server =
      ({ ready with cache := { ready.cache with committed } },
        (readyPass document server).2 ++
          [.publish document.uri
            ({ ready.cache with committed }.shown document.uri)]) := by
  intro ready committed
  obtain ⟨registered, running, nextGeneration, fetches, nextFetch, left⟩ :=
    readyPass_fst server document
  have dropped : ready.cache.inProgress.get? document.uri = none := by
    rw [show ready = _ from left]
    exact Dictionary.get?_erase_self _ _
  have commits := Cache.commit_of_unreported dropped
  rw [beginPass_of_missing opened missing, andThen_apply, onCache,
    Cache.succeed_of_finished _ server.nextPass finished, commits]
  rfl

/-- The beginning of a pass, by what it leaves of the server that is ready for it. -/
private theorem Starts.of_ready {passes : List Pass} {committed : Dictionary Url IssueSet}
    {waiting : List WaitingCommit} {effects : List Effect}
    (begins : beginPass document server =
      ({ (readyPass document server).1 with
          passes
          cache := { (readyPass document server).1.cache with committed, waiting } }, effects))
    (underWay : server.engine ≠ .program .none →
      passes = server.passes ++ [server.nextPassOver document] ∧
        handed effects = [(server.nextPassOver document, server.engine)] ∧
        committed = server.cache.committed)
    (waits : server.engine = .program .none → ∀ generation,
      (readyPass document server).1.cache.unfinished? document.uri = some generation →
      passes = server.passes ∧ handed effects = [] ∧ committed = server.cache.committed ∧
        waiting = server.cache.waiting ++
          [{ ticket := server.nextPass, file := document.uri, generation }])
    (succeeds : server.engine = .program .none →
      (readyPass document server).1.cache.isUpdating document.uri = false →
      passes = server.passes ∧ committed.get? document.uri = none ∧
        effects = [.publish document.uri
          ({ (readyPass document server).1.cache with committed, waiting }.shown document.uri)]) :
    Starts document server (beginPass document server).1 (beginPass document server).2 := by
  have updating : (readyPass document server).1.cache.isUpdating document.uri =
      (server.binding.isSome || server.cache.isUpdating document.uri) := by
    rw [readyPass_eq_refreshBeside]
    exact isUpdating_refreshBeside _ document server.binding
  have still := still_beginPass document server [] ⟨rfl, rfl, rfl⟩
  obtain ⟨registered, running, nextGeneration, fetches, nextFetch, left⟩ :=
    readyPass_fst server document
  rw [begins] at still ⊢
  rw [left] at still waits succeeds updating ⊢
  exact
    { still := ⟨still.root, still.documents, still.debouncer⟩
      engine := rfl
      binding := rfl
      counted := rfl
      dropped := Dictionary.get?_erase_self _ _
      refreshed := updating
      underWay := underWay
      waits := waits
      succeeds := succeeds }

/-- A pass over a document of an open file begins as passes do. -/
theorem starts_beginPass (opened : server.documents.contains document.uri = true) :
    Starts document server (beginPass document server).1 (beginPass document server).2 := by
  obtain ⟨registered, running, nextGeneration, fetches, nextFetch, left⟩ :=
    readyPass_fst server document
  have passes : (readyPass document server).1.passes = server.passes := by rw [left]
  have committed : (readyPass document server).1.cache.committed = server.cache.committed := by
    rw [left]
    rfl
  have waiting : (readyPass document server).1.cache.waiting = server.cache.waiting := by
    rw [left]
    rfl
  by_cases missing : server.engine = .program .none
  · cases unfinished : (readyPass document server).1.cache.unfinished? document.uri with
    | some generation =>
        refine .of_ready (beginPass_of_unfinished opened missing unfinished)
          (fun present => (present missing).elim) ?_ ?_
        · rintro _ other found
          obtain rfl := Option.some.inj (unfinished.symm.trans found)
          exact ⟨passes, handed_readyPass server document, committed, by rw [waiting]⟩
        · intro _ idle
          rw [Cache.isUpdating, unfinished] at idle
          cases idle
    | none =>
        refine .of_ready (beginPass_of_finished opened missing unfinished)
          (fun present => (present missing).elim) ?_ ?_
        · intro _ generation found
          cases unfinished.symm.trans found
        · intro _ idle
          -- A file that is not refreshed once the pass is ready has no binding to be refreshed by.
          have unbound : server.binding = none := by
            rw [readyPass_eq_refreshBeside, isUpdating_refreshBeside, Bool.or_eq_false_iff] at idle
            exact Option.isNone_iff_eq_none.mp (Option.isSome_eq_false_iff.mp idle.1)
          have silent : (readyPass document server).2 = [] := by
            rw [readyPass_eq_refreshBeside, unbound]
            rfl
          refine ⟨passes, Dictionary.get?_erase_self _ _, ?_⟩
          rw [silent]
          rfl
  · refine .of_ready (beginPass_of_engine document missing) ?_ (fun none => (missing none).elim)
      fun none => (missing none).elim
    intro _
    refine ⟨rfl, ?_, committed⟩
    rw [handed_append, handed_readyPass]
    rfl

end Starts

/-- Passes over documents begin one after the other. -/
inductive StartsAll : List Document → LanguageServer → LanguageServer → List Effect → Prop
  | nil {server : LanguageServer} : StartsAll [] server server []
  | cons {document : Document} {rest : List Document} {server middle after : LanguageServer}
      {before later : List Effect} (first : Starts document server middle before)
      (others : StartsAll rest middle after later) :
      StartsAll (document :: rest) server after (before ++ later)

/-- Passes begin one after the other over documents that are all open. -/
theorem startsAll_each_beginPass {documents : List Document} {server : LanguageServer}
    (opened : ∀ document ∈ documents, server.documents.contains document.uri = true) :
    StartsAll documents server (each beginPass documents server).1
      (each beginPass documents server).2 := by
  induction documents generalizing server with
  | nil => exact .nil
  | cons document rest ih =>
      have first := starts_beginPass (opened document List.mem_cons_self)
      refine .cons first (ih fun other member => ?_)
      rw [first.still.documents]
      exact opened other (List.mem_cons_of_mem document member)

/-- The next passes over documents, one for each. -/
def nextPassesOver (server : LanguageServer) (documents : List Document) : List Pass :=
  documents.mapIdx fun place document =>
    { number := server.nextPass + place, document, tracked := server.binding.isSome }

/-- The next passes over documents are over these documents, in their order. -/
theorem documents_nextPassesOver (server : LanguageServer) (documents : List Document) :
    (server.nextPassesOver documents).map Pass.document = documents :=
  List.ext_getElem (by simp [nextPassesOver]) (by simp [nextPassesOver])

/-- Passes that begin leave the engine. -/
theorem StartsAll.engine {documents : List Document} {server after : LanguageServer}
    {effects : List Effect} (starts : StartsAll documents server after effects) :
    after.engine = server.engine := by
  induction starts with
  | nil => rfl
  | cons first others ih => exact ih.trans first.engine

/-- With an engine, every pass that begins is under way and the engine has been handed it. -/
theorem StartsAll.handed {documents : List Document} {server after : LanguageServer}
    {effects : List Effect} (starts : StartsAll documents server after effects)
    (engine : server.engine ≠ .program .none) :
    after.passes = server.passes ++ server.nextPassesOver documents ∧
      handed effects = (server.nextPassesOver documents).map (·, server.engine) := by
  induction starts with
  | nil => exact ⟨(List.append_nil _).symm, rfl⟩
  | @cons document rest server middle after before later first others ih =>
      obtain ⟨passes, given⟩ := ih (by rwa [first.engine])
      obtain ⟨one, alone, _⟩ := first.underWay engine
      have next : server.nextPassesOver (document :: rest) =
          server.nextPassOver document :: middle.nextPassesOver rest := by
        rw [nextPassesOver, nextPassesOver, List.mapIdx_cons, first.counted, first.binding]
        simp only [Nat.add_assoc, Nat.add_comm 1]
        rfl
      rw [next, handed_append, alone, given, first.engine, passes, one, List.append_assoc]
      exact ⟨rfl, rfl⟩

end IssueRelay.LanguageServer
