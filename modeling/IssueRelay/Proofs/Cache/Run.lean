import IssueRelay.Proofs.Cache.Refresh
import IssueRelay.Proofs.Transition

/-!
# Runs as chronicles

Every operation is made of actions that are possible one after the other: scheduling begins the
refreshes of its documents in turn, and when a refresh is complete, the commits that have waited
for it are made in turn. So every run has a chronicle (`IssueRelay.Cache.exists_chronicle_run`),
and it preserves what the actions preserve of which its operations are made
(`IssueRelay.Cache.preserves_run`).
-/

namespace IssueRelay.Cache

open Transition

/-- The actions of which an operation is made, one after the other. -/
def Operation.actions (cache : Cache) : Operation → List Action
  | .start file => [.start file]
  | .report document issue => [.report document issue]
  | .reportTracked document issue known => [.reportTracked document issue known]
  | .fail file => [.fail file]
  | .succeed file ticket => [.succeed file ticket]
  | .clear file => [.clear file]
  | .schedule server documents => documents.map (.schedule server)
  | .complete generation answer =>
    match cache.running.find? (·.generation = generation) with
    | some refresh => .finish refresh answer :: (cache.waitingFor generation).map .resume
    | none => []
  | .seedSecretSeen seen => [.seedSecretSeen seen]

/-- Applying an operation is doing its actions one after the other, chosen by the cache that it
finds. -/
theorem step_eq_inspect (operation : Operation) :
    step operation = inspect fun cache => each act (operation.actions cache) := by
  cases operation with
  | schedule server documents =>
      funext cache
      exact congrFun (each_map act (.schedule server) documents).symm cache
  | complete generation answer =>
      funext cache
      rw [step, complete, inspect_apply, inspect_apply, Operation.actions]
      cases cache.running.find? (·.generation = generation) with
      | none => rfl
      | some refresh =>
          have resumes := each_map act .resume (cache.waitingFor generation)
          rw [each_cons, resumes]
          rfl
  | _ =>
      rw [step]
      exact (andThen_idle _).symm

/-- A run preserves what every action of its operations preserves. -/
theorem preserves_run {invariant : Cache → List Effect → Prop} {operations : List Operation}
    (keeps : ∀ operation ∈ operations, ∀ cache, ∀ action ∈ operation.actions cache,
      Preserves invariant (act action)) :
    Preserves invariant (run operations) := by
  apply preserves_each
  intro operation member
  rw [step_eq_inspect]
  exact ensures_inspect fun cache => preserves_each (keeps operation member cache)

/-! ## Actions in turn -/

/-- Whether actions can happen one after the other. -/
def InTurn : List Action → Cache → Prop
  | [], _ => True
  | action :: rest, cache => action.Possible cache ∧ InTurn rest (act action cache).1

/-- The fetch found by a generation goes on, and it has this generation. -/
theorem mem_running_of_find? {cache : Cache} {generation : Nat} {refresh : Refresh}
    (found : cache.running.find? (·.generation = generation) = some refresh) :
    refresh ∈ cache.running ∧ refresh.generation = generation :=
  ⟨List.mem_of_find?_eq_some found, by simpa using List.find?_some found⟩

/-- Refreshes of documents can begin in turn. -/
theorem inTurn_schedule (server : Binding) (documents : List Document) (cache : Cache) :
    InTurn (documents.map (.schedule server)) cache := by
  induction documents generalizing cache with
  | nil => trivial
  | cons document rest ih => exact ⟨trivial, ih _⟩

/-- Waiting commits whose refreshes have ended can be made in turn. -/
theorem inTurn_resume {cache : Cache} (pendings : List WaitingCommit)
    (waiting : pendings.Subperm cache.waiting)
    (ended : ∀ pending ∈ pendings, cache.isRunning pending.generation = false) :
    InTurn (pendings.map .resume) cache := by
  induction pendings generalizing cache with
  | nil => trivial
  | cons pending rest ih =>
      have present : pending ∈ cache.waiting := waiting.subset List.mem_cons_self
      obtain ⟨seen, left⟩ := resume_fst cache pending
      refine ⟨⟨present, ended pending List.mem_cons_self⟩, ih ?_ ?_⟩
      · rw [act, left]
        simpa using waiting.erase pending
      · rw [act, left]
        exact fun other member => ended other (List.mem_cons_of_mem _ member)

namespace Chronicle

variable {cache : Cache}

/-- No other refresh has the generation of one that has ended. -/
theorem isRunning_endRefresh (past : Chronicle cache) {refresh : Refresh}
    (live : refresh ∈ cache.running) (answer : Option (List TaintIssue)) :
    (endRefresh refresh answer cache).1.isRunning refresh.generation = false := by
  obtain ⟨taint, seen, left⟩ := endRefresh_fst cache refresh answer
  rw [left]
  apply Bool.eq_false_iff.mpr
  intro running
  obtain ⟨other, remains, same⟩ := List.any_eq_true.mp running
  obtain ⟨before, different⟩ := List.mem_filter.mp remains
  have unique := List.inj_on_of_nodup_map past.registry.distinct before live
    (of_decide_eq_true same)
  exact of_decide_eq_true different unique

/-- A refresh ends, and then the commits that have waited for it are made. -/
theorem inTurn_complete (past : Chronicle cache) (generation : Nat)
    (answer : Option (List TaintIssue)) :
    InTurn (Operation.actions cache (.complete generation answer)) cache := by
  rw [Operation.actions]
  cases found : cache.running.find? (·.generation = generation) with
  | none => trivial
  | some refresh =>
      obtain ⟨live, same⟩ := mem_running_of_find? found
      obtain ⟨taint, seen, left⟩ := endRefresh_fst cache refresh answer
      refine ⟨live, inTurn_resume _ ?_ ?_⟩
      · rw [act, left]
        exact List.filter_sublist.subperm
      · intro pending member
        have waits : pending.generation = refresh.generation := by
          rw [same]
          exact of_decide_eq_true (List.mem_filter.mp member).2
        rw [waits]
        exact past.isRunning_endRefresh live answer

/-- The actions of an operation are possible one after the other. -/
theorem inTurn_actions (past : Chronicle cache) (operation : Operation) :
    InTurn (operation.actions cache) cache := by
  cases operation with
  | schedule server documents => exact inTurn_schedule server documents cache
  | complete generation answer => exact past.inTurn_complete generation answer
  | _ => exact ⟨trivial, trivial⟩

/-- The chronicle goes on with actions. -/
def follow : {cache : Cache} → Chronicle cache → (actions : List Action) →
    InTurn actions cache → Chronicle (each act actions cache).1
  | _, past, [], _ => past
  | _, past, action :: rest, possible => (past.next action possible.1).follow rest possible.2

/-- Actions that follow add their effects to those of the past. -/
theorem effects_follow (past : Chronicle cache) (actions : List Action)
    (possible : InTurn actions cache) :
    (past.follow actions possible).effects = past.effects ++ (each act actions cache).2 := by
  induction actions generalizing cache with
  | nil => exact (List.append_nil _).symm
  | cons action rest ih =>
      have later := ih (past.next action possible.1) possible.2
      rw [effects, List.append_assoc] at later
      exact later

/-! ## Operations in turn -/

/-- The actions of an operation lead to the cache and to the effects of the operation. -/
theorem each_actions (operation : Operation) (cache : Cache) :
    each act (operation.actions cache) cache = step operation cache :=
  (congrFun (step_eq_inspect operation) cache).symm

/-- The chronicle of a cache that is written otherwise. -/
def transfer {other : Cache} (past : Chronicle cache) (same : cache = other) : Chronicle other :=
  same ▸ past

/-- Nothing that is told of a chronicle depends on how its cache is written. -/
theorem apply_transfer {α : Sort*} (tell : {cache : Cache} → Chronicle cache → α) {other : Cache}
    (past : Chronicle cache) (same : cache = other) : tell (past.transfer same) = tell past := by
  subst same
  rfl

/-- The chronicle goes on with the actions of an operation. -/
def after (past : Chronicle cache) (operation : Operation) : Chronicle (step operation cache).1 :=
  (past.follow (operation.actions cache) (past.inTurn_actions operation)).transfer
    (congrArg Prod.fst (each_actions operation cache))

/-- Whatever is told of an operation is told of its actions. -/
theorem apply_after {α : Sort*} (tell : {cache : Cache} → Chronicle cache → α)
    (past : Chronicle cache) (operation : Operation) :
    tell (past.after operation) =
      tell (past.follow (operation.actions cache) (past.inTurn_actions operation)) :=
  apply_transfer tell _ _

/-- An operation adds its effects to those of the past. -/
theorem effects_after (past : Chronicle cache) (operation : Operation) :
    (past.after operation).effects = past.effects ++ (step operation cache).2 := by
  rw [past.apply_after effects operation, effects_follow, each_actions]

/-- The chronicle goes on with a run. -/
def afterAll : {cache : Cache} → Chronicle cache → (operations : List Operation) →
    Chronicle (run operations cache).1
  | _, past, [] => past
  | _, past, operation :: rest => (past.after operation).afterAll rest

/-- A run adds its effects to those of the past. -/
theorem effects_afterAll (past : Chronicle cache) (operations : List Operation) :
    (past.afterAll operations).effects = past.effects ++ (run operations cache).2 := by
  induction operations generalizing cache with
  | nil => exact (List.append_nil _).symm
  | cons operation rest ih =>
      have later := ih (past.after operation)
      rw [effects_after, List.append_assoc] at later
      exact later

/-- An outcome can follow on what has happened: a chronicle leads on to its cache and brings about
its effects. -/
def LeadsTo (past : Chronicle cache) (outcome : Cache × List Effect) : Prop :=
  ∃ later : Chronicle outcome.1, later.effects = past.effects ++ outcome.2

/-- A run from a cache with a past leads to a cache whose past goes on from it. -/
theorem leadsTo_run (past : Chronicle cache) (operations : List Operation) :
    past.LeadsTo (run operations cache) :=
  ⟨past.afterAll operations, past.effects_afterAll operations⟩

/-- The chronicle of a run. -/
def ofRun (operations : List Operation) : Chronicle (run operations .empty).1 :=
  beginning.afterAll operations

/-- The effects in the chronicle of a run are those of the run. -/
theorem effects_ofRun (operations : List Operation) :
    (ofRun operations).effects = (run operations .empty).2 :=
  beginning.effects_afterAll operations

end Chronicle

/-- Every run has a chronicle with the same effects. -/
theorem exists_chronicle_run (operations : List Operation) :
    ∃ past : Chronicle (run operations .empty).1,
      past.effects = (run operations .empty).2 :=
  ⟨.ofRun operations, Chronicle.effects_ofRun operations⟩

end IssueRelay.Cache
