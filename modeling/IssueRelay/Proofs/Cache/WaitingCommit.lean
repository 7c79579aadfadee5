import IssueRelay.Proofs.Cache.Run
import IssueRelay.Proofs.Diagnostic.OfIssues

/-!
# Commits that wait for a refresh

A pass that succeeds while its file is refreshed waits for that refresh, whatever becomes of it. The
calls that wait for one refresh form a queue, which nothing but the end of the refresh shortens;
when it ends, they are committed and return in the order of their calls, and the issues that the
refresh has brought are shown with what each has committed
(`IssueRelay.Cache.succeed_waits_for_refresh`).
-/

namespace IssueRelay.Cache

open Transition

variable {cache : Cache}

/-- Whether an action belongs to the end of the refresh of a generation: it ends it, or it makes a
commit that has waited for it. -/
def Action.completes (generation : Nat) : Action → Bool
  | .finish refresh _ => refresh.generation = generation
  | .resume pending => pending.generation = generation
  | _ => false

/-! ## The operations behind actions -/

/-- The end of a refresh is made of the answer and of the commits that have waited for it. -/
theorem mem_actions_complete {generation : Nat} {answer : Option (List TaintIssue)}
    {action : Action} (member : action ∈ (Operation.complete generation answer).actions cache) :
    (∃ refresh : Refresh, action = .finish refresh answer ∧ refresh.generation = generation) ∨
      ∃ pending ∈ cache.waiting, action = .resume pending ∧ pending.generation = generation := by
  rw [Operation.actions] at member
  cases found : cache.running.find? (·.generation = generation) with
  | none =>
      rw [found] at member
      cases member
  | some refresh =>
      rw [found] at member
      rcases List.mem_cons.mp member with ends | resumed
      · exact .inl ⟨refresh, ends, (mem_running_of_find? found).2⟩
      · obtain ⟨pending, waits, rfl⟩ := List.mem_map.mp resumed
        obtain ⟨present, awaited⟩ := List.mem_filter.mp waits
        exact .inr ⟨pending, present, rfl, of_decide_eq_true awaited⟩

section Operations

variable {operation : Operation} {action : Action} (member : action ∈ operation.actions cache)

include member

/-- Only the end of a refresh completes it. -/
theorem eq_complete_of_completes {generation : Nat}
    (completes : action.completes generation = true) :
    ∃ answer, operation = .complete generation answer := by
  cases operation with
  | complete other answer =>
      rcases mem_actions_complete member with ⟨refresh, rfl, rfl⟩ | ⟨pending, _, rfl, rfl⟩
      · exact ⟨answer, congrArg (Operation.complete · answer) (of_decide_eq_true completes)⟩
      · exact ⟨answer, congrArg (Operation.complete · answer) (of_decide_eq_true completes)⟩
  | schedule server documents =>
      obtain ⟨document, _, rfl⟩ := List.mem_map.mp member
      cases completes
  | _ =>
      obtain rfl := List.mem_singleton.mp member
      cases completes

/-- Only clearing a file clears it. -/
theorem eq_clear_of_clears {file : Url} (clears : action.clears file = true) :
    operation = .clear file := by
  cases operation with
  | clear cleared =>
      obtain rfl := List.mem_singleton.mp member
      exact congrArg Operation.clear (of_decide_eq_true clears)
  | complete generation answer =>
      rcases mem_actions_complete member with ⟨refresh, rfl, _⟩ | ⟨pending, _, rfl, _⟩ <;>
        cases clears
  | schedule server documents =>
      obtain ⟨document, _, rfl⟩ := List.mem_map.mp member
      cases clears
  | _ =>
      obtain rfl := List.mem_singleton.mp member
      cases clears

omit member in
/-- A pass succeeds only by the call that says so. -/
theorem eq_succeed_of_mem_actions {file : Url} {ticket : Nat}
    (member : Action.succeed file ticket ∈ operation.actions cache) :
    operation = .succeed file ticket := by
  cases operation with
  | succeed other given =>
      cases List.mem_singleton.mp member
      rfl
  | complete generation answer =>
      rcases mem_actions_complete member with ⟨refresh, ends, _⟩ | ⟨pending, _, resumes, _⟩
      · cases ends
      · cases resumes
  | schedule server documents =>
      obtain ⟨document, _, schedules⟩ := List.mem_map.mp member
      cases schedules
  | _ => cases List.mem_singleton.mp member

omit member in
/-- Only commits that wait are taken up again. -/
theorem mem_waiting_of_mem_actions {pending : WaitingCommit}
    (member : Action.resume pending ∈ operation.actions cache) : pending ∈ cache.waiting := by
  obtain ⟨answer, rfl⟩ := eq_complete_of_completes member (decide_eq_true rfl)
  rcases mem_actions_complete member with ⟨refresh, ends, _⟩ | ⟨other, present, resumes, _⟩
  · cases ends
  · cases resumes
    exact present

end Operations

/-! ## The queue of a refresh -/

/-- A commit that waits after an action waited before, or it is that of a pass that has just
succeeded during a refresh. -/
theorem mem_waiting_act {action : Action} {pending : WaitingCommit}
    (member : pending ∈ (act action cache).1.waiting) :
    pending ∈ cache.waiting ∨ action = .succeed pending.file pending.ticket ∧
      cache.unfinished? pending.file = some pending.generation := by
  rw [waiting_act] at member
  cases action with
  | succeed file ticket =>
      rcases List.mem_append.mp member with earlier | last
      · exact .inl earlier
      · obtain ⟨generation, unfinished, rfl⟩ :=
          Option.map_eq_some_iff.mp (Option.mem_toList.mp last)
        exact .inr ⟨rfl, unfinished⟩
  | resume resumed => exact .inl (List.mem_of_mem_erase member)
  | _ => exact .inl member

/-- A refresh is under way, and the calls in a queue wait for it before all others. -/
structure Awaited (cache : Cache) (refresh : Refresh) (queue : List WaitingCommit) : Prop where
  live : refresh ∈ cache.running
  queued : queue <+: cache.waitingFor refresh.generation

/-- A fetch goes on until its own refresh ends. -/
theorem live_act {refresh : Refresh} (live : refresh ∈ cache.running) {action : Action}
    (continues : action.completes refresh.generation = false) :
    refresh ∈ (act action cache).1.running := by
  cases refreshChange cache action with
  | start other begins fresh idle silent clears left =>
      rw [left]
      exact List.mem_append_left _ live
  | finish ended answer same begins clears registered running taint nextGeneration =>
      subst same
      have different : refresh ≠ ended := by
        rintro rfl
        exact of_decide_eq_false continues rfl
      rw [running]
      exact List.mem_filter.mpr ⟨live, decide_eq_true different⟩
  | clear cleared clears begins silent registered running taint nextGeneration =>
      rw [running]
      exact live
  | none begins silent clears registered running taint nextGeneration =>
      rw [running]
      exact live

/-- Until a refresh ends, others may join its queue and nobody leaves it. -/
theorem waitingFor_act {generation : Nat} {action : Action}
    (continues : action.completes generation = false) :
    cache.waitingFor generation <+: (act action cache).1.waitingFor generation := by
  rw [waitingFor, waitingFor, waiting_act]
  cases action with
  | succeed file ticket =>
      rw [List.filter_append]
      exact List.prefix_append _ _
  | resume pending =>
      have elsewhere : pending ∉ cache.waiting.filter (·.generation = generation) := by
        intro waits
        exact of_decide_eq_false continues (by simpa using (List.mem_filter.mp waits).2)
      have kept : (cache.waiting.erase pending).filter (·.generation = generation) =
          cache.waiting.filter (·.generation = generation) := by
        rw [← List.erase_filter, List.erase_of_not_mem elsewhere]
      exact kept.symm ▸ List.prefix_rfl
  | _ => exact List.prefix_rfl

/-- Until a refresh ends, the calls of a queue wait for it before all others. -/
theorem preserves_awaited {refresh : Refresh} {queue : List WaitingCommit} {action : Action}
    (continues : action.completes refresh.generation = false) :
    Preserves (fun cache _ => cache.Awaited refresh queue) (act action) :=
  fun _ _ awaited =>
    ⟨live_act awaited.live continues, awaited.queued.trans (waitingFor_act continues)⟩

/-- A refresh that is under way stays registered until its file is cleared: meanwhile no other
refresh of the file begins. -/
theorem registered_act {refresh : Refresh} (live : refresh ∈ cache.running)
    (registered : cache.registered.get? refresh.file = some refresh.generation) {action : Action}
    (keeps : action.clears refresh.file = false) :
    (act action cache).1.registered.get? refresh.file = some refresh.generation := by
  cases refreshChange cache action with
  | start other begins fresh idle silent clears left =>
      have different : refresh.file ≠ other.file := by
        intro same
        rw [← same, isUpdating_iff.mpr ⟨refresh, live, registered⟩] at idle
        cases idle
      rw [left]
      exact (Dictionary.get?_insert_of_ne _ _ different).trans registered
  | finish ended answer same begins clears unchanged running taint nextGeneration =>
      rw [unchanged]
      exact registered
  | clear cleared clears begins silent erased running taint nextGeneration =>
      have different : refresh.file ≠ cleared := by
        rintro rfl
        rw [clears, decide_eq_true rfl] at keeps
        cases keeps
      rw [erased, Dictionary.get?_erase_of_ne _ different]
      exact registered
  | none begins silent clears unchanged running taint nextGeneration =>
      rw [unchanged]
      exact registered

/-! ## Returns -/

/-- The commits of a queue return in its order. -/
theorem returned_each_resume (pendings : List WaitingCommit) :
    returned (each resume pendings cache).2 = pendings.map WaitingCommit.ticket := by
  induction pendings generalizing cache with
  | nil => rfl
  | cons pending rest ih =>
      have first : returned (resume pending cache).2 = [pending.ticket] :=
        returned_act cache (.resume pending)
      rw [each_cons, andThen_apply, returned_append, first, ih]
      rfl

/-- A call returns when its pass succeeds or when its commit is taken up again. -/
theorem mem_returned_act {action : Action} {ticket : Nat}
    (returns : ticket ∈ returned (act action cache).2) :
    (∃ file, action = .succeed file ticket) ∨
      ∃ pending : WaitingCommit, action = .resume pending ∧ pending.ticket = ticket := by
  rw [returned_act] at returns
  cases action with
  | succeed file other =>
      dsimp only at returns
      split at returns
      · obtain rfl := List.mem_singleton.mp returns
        exact .inl ⟨file, rfl⟩
      · cases returns
  | resume pending => exact .inr ⟨pending, rfl, (List.mem_singleton.mp returns).symm⟩
  | _ => cases returns

/-- Among several actions, a call returns by one of these two. -/
theorem mem_returned_each_act {actions : List Action} {ticket : Nat}
    (returns : ticket ∈ returned (each act actions cache).2) :
    (∃ file, .succeed file ticket ∈ actions) ∨
      ∃ pending : WaitingCommit, .resume pending ∈ actions ∧ pending.ticket = ticket := by
  induction actions generalizing cache with
  | nil => cases returns
  | cons action rest ih =>
      rw [each_cons, andThen_apply, returned_append] at returns
      rcases List.mem_append.mp returns with first | later
      · rcases mem_returned_act first with ⟨file, rfl⟩ | ⟨pending, rfl, same⟩
        · exact .inl ⟨file, List.mem_cons_self⟩
        · exact .inr ⟨pending, List.mem_cons_self, same⟩
      · rcases ih later with ⟨file, member⟩ | ⟨pending, member, same⟩
        · exact .inl ⟨file, List.mem_cons_of_mem _ member⟩
        · exact .inr ⟨pending, List.mem_cons_of_mem _ member, same⟩

/-- All calls that wait under a ticket wait for the refresh of a generation. -/
def WaitsOnlyFor (cache : Cache) (ticket generation : Nat) : Prop :=
  ∀ pending ∈ cache.waiting, pending.ticket = ticket → pending.generation = generation

/-- What a ticket waits for does not change unless another call has the same ticket. -/
theorem waitsOnlyFor_act {ticket generation : Nat} (waits : cache.WaitsOnlyFor ticket generation)
    {action : Action} (foreign : ∀ file, action ≠ .succeed file ticket) :
    (act action cache).1.WaitsOnlyFor ticket generation := by
  intro pending member same
  rcases mem_waiting_act member with earlier | ⟨succeeds, _⟩
  · exact waits pending earlier same
  · rw [same] at succeeds
    exact (foreign pending.file succeeds).elim

/-- A call that waits does not return while its refresh goes on. -/
theorem not_returned_step {ticket generation : Nat} (waits : cache.WaitsOnlyFor ticket generation)
    {operation : Operation} (continues : ∀ answer, operation ≠ .complete generation answer)
    (foreign : ∀ file, operation ≠ .succeed file ticket) :
    ticket ∉ returned (step operation cache).2 := by
  intro returns
  rw [step_eq_inspect, inspect_apply] at returns
  rcases mem_returned_each_act returns with ⟨file, member⟩ | ⟨pending, member, same⟩
  · exact foreign file (eq_succeed_of_mem_actions member)
  · obtain ⟨answer, completes⟩ := eq_complete_of_completes member (decide_eq_true rfl)
    have awaited := waits pending (mem_waiting_of_mem_actions member) same
    rw [awaited] at completes
    exact continues answer completes

/-! ## Commits -/

/-- A commit takes over what is in progress and shows it with the taint issues of the file. -/
theorem publications_resume (pending : WaitingCommit) :
    publications (resume pending cache).2 =
      [(pending.file, Diagnostic.ofIssues pending.file
        ((cache.inProgress.get? pending.file).getD ∅) (cache.taint.get pending.file))] := by
  let waited := { cache with waiting := cache.waiting.erase pending }
  obtain ⟨seen, left⟩ := commit_fst waited pending.file
  have current : (commit pending.file waited).1.current pending.file =
      (cache.inProgress.get? pending.file).getD ∅ := by
    rw [left, Cache.current]
    dsimp only
    rw [inProgress_commitIssues_self, committed_commitIssues_self]
  have taint : (commit pending.file waited).1.taint = cache.taint := by rw [left]
  rw [resume_apply, publications_append, publications_commit, shown, current, taint]
  rfl

/-- A commit that is taken up again takes over what is in progress then. -/
theorem committed_resume (pending : WaitingCommit) :
    (resume pending cache).1.committed.get? pending.file =
      cache.inProgress.get? pending.file := by
  obtain ⟨seen, left⟩ := resume_fst cache pending
  rw [left]
  exact committed_commitIssues_self cache pending.file

/-- Commits leave the vulnerabilities. -/
theorem taint_each_resume (pendings : List WaitingCommit) :
    (each resume pendings cache).1.taint = cache.taint := by
  induction pendings generalizing cache with
  | nil => rfl
  | cons pending rest ih =>
      obtain ⟨seen, left⟩ := resume_fst cache pending
      rw [each_cons, andThen_apply, ih, left]

namespace Chronicle

/-- A call waits for the registered refresh of its file. -/
theorem live_of_unfinished (past : Chronicle cache) {file : Url} {generation : Nat}
    (unfinished : cache.unfinished? file = some generation) :
    (⟨generation, file⟩ : Refresh) ∈ cache.running ∧
      cache.registered.get? file = some generation := by
  obtain ⟨registered, running⟩ := Option.filter_eq_some_iff.mp unfinished
  obtain ⟨refresh, live, same⟩ := List.any_eq_true.mp running
  have begun := past.registry.begun_of_registered file generation registered
  have unique := past.registry.eq_of_generation file refresh live _ begun (of_decide_eq_true same)
  exact ⟨unique ▸ live, registered⟩

/-- What is under way under the generation for which a call waits is a refresh of its file. -/
theorem waits_for_own_refresh (past : Chronicle cache) :
    ∀ pending ∈ cache.waiting, pending.generation < cache.nextGeneration ∧
      ∀ refresh ∈ cache.running, refresh.generation = pending.generation →
        refresh.file = pending.file := by
  induction past with
  | beginning => exact fun _ member => nomatch member
  | @next cache past action possible ih =>
      intro pending member
      rcases mem_waiting_act member with earlier | ⟨rfl, unfinished⟩
      · obtain ⟨older, own⟩ := ih pending earlier
        cases refreshChange cache action with
        | start refresh begins fresh idle silent clears left =>
            rw [left]
            refine ⟨Nat.lt_succ_of_lt older, fun other live same => ?_⟩
            rcases List.mem_append.mp live with before | last
            · exact own other before same
            · rw [List.mem_singleton.mp last, fresh] at same
              omega
        | finish refresh answer same begins clears registered running taint nextGeneration =>
            rw [running, nextGeneration]
            exact ⟨older, fun other live => own other (List.mem_of_mem_filter live)⟩
        | clear cleared clears begins silent registered running taint nextGeneration =>
            rw [running, nextGeneration]
            exact ⟨older, own⟩
        | none begins silent clears registered running taint nextGeneration =>
            rw [running, nextGeneration]
            exact ⟨older, own⟩
      · obtain ⟨live, registered⟩ := past.live_of_unfinished unfinished
        have begun := past.registry.begun_of_registered _ _ registered
        rw [act, succeed_of_unfinished cache _ unfinished]
        refine ⟨past.registry.begun_lt _ _ begun, fun other running same => ?_⟩
        rw [past.registry.eq_of_generation _ other running _ begun same]

/-- When a refresh is complete, it ends, and its queue is committed in order. -/
theorem complete_of_live (past : Chronicle cache) {refresh : Refresh}
    (live : refresh ∈ cache.running) (answer : Option (List TaintIssue)) :
    complete refresh.generation answer cache =
      ((endRefresh refresh answer).andThen
        (each resume (cache.waitingFor refresh.generation))) cache := by
  have present : (cache.running.find? (·.generation = refresh.generation)).isSome :=
    List.find?_isSome.mpr ⟨refresh, live, decide_eq_true rfl⟩
  obtain ⟨found, first⟩ := Option.isSome_iff_exists.mp present
  obtain ⟨member, same⟩ := mem_running_of_find? first
  obtain rfl := List.inj_on_of_nodup_map past.registry.distinct member live same
  rw [complete, inspect_apply, first]

end Chronicle

/-! ## Runs while a refresh goes on -/

section Runs

variable {refresh : Refresh} {later : List Operation}
  (continues : ∀ answer, Operation.complete refresh.generation answer ∉ later)

include continues

/-- While a refresh goes on, no action of the run completes it. -/
theorem completes_of_continues {operation : Operation} (among : operation ∈ later) {action : Action}
    (member : action ∈ operation.actions cache) :
    action.completes refresh.generation = false := by
  apply Bool.eq_false_iff.mpr
  intro completes
  obtain ⟨answer, rfl⟩ := eq_complete_of_completes member completes
  exact continues answer among

/-- While a refresh goes on, the calls of a queue keep waiting for it before all others. -/
theorem awaited_run {queue : List WaitingCommit} (awaited : cache.Awaited refresh queue) :
    (run later cache).1.Awaited refresh queue := by
  have kept : Preserves (fun cache _ => cache.Awaited refresh queue) (run later) := by
    apply preserves_run
    intro operation among state action member
    exact preserves_awaited (completes_of_continues continues among member)
  exact kept cache [] awaited

/-- While a refresh goes on and its file is not cleared, it stays registered. -/
theorem registered_run (live : refresh ∈ cache.running)
    (registered : cache.registered.get? refresh.file = some refresh.generation)
    (uncleared : Operation.clear refresh.file ∉ later) :
    (run later cache).1.registered.get? refresh.file = some refresh.generation := by
  have kept : Preserves (fun cache _ => refresh ∈ cache.running ∧
      cache.registered.get? refresh.file = some refresh.generation) (run later) := by
    apply preserves_run
    rintro operation among state action member cache past ⟨live, registered⟩
    have keeps : action.clears refresh.file = false := by
      apply Bool.eq_false_iff.mpr
      intro clears
      exact uncleared (eq_clear_of_clears member clears ▸ among)
    exact ⟨live_act live (completes_of_continues continues among member),
      registered_act live registered keeps⟩
  exact (kept cache [] ⟨live, registered⟩).2

/-- While a refresh goes on, a call that waits for nothing else does not return. -/
theorem not_returned_run {ticket : Nat} (waits : cache.WaitsOnlyFor ticket refresh.generation)
    (foreign : ∀ file, Operation.succeed file ticket ∉ later) :
    ticket ∉ returned (run later cache).2 := by
  have kept : Preserves (fun cache past => cache.WaitsOnlyFor ticket refresh.generation ∧
      ticket ∉ returned past) (run later) := by
    apply preserves_each
    rintro operation among cache past ⟨waits, unreturned⟩
    constructor
    · have stays : Preserves (fun cache _ => cache.WaitsOnlyFor ticket refresh.generation)
          (step operation) := by
        rw [step_eq_inspect]
        apply ensures_inspect
        intro state
        apply preserves_each
        rintro action member cache past waits
        apply waitsOnlyFor_act waits
        rintro file rfl
        exact foreign file (eq_succeed_of_mem_actions member ▸ among)
      exact stays cache past waits
    · rw [returned_append, List.mem_append, not_or]
      refine ⟨unreturned, not_returned_step waits ?_ ?_⟩
      · rintro answer rfl
        exact continues answer among
      · rintro file rfl
        exact foreign file among
  exact (kept cache [] ⟨waits, List.not_mem_nil⟩).2

end Runs

/-- **Waiting for a refresh.** A call that finds no registered refresh of its file under way commits
and returns at once. Otherwise it joins the queue of that refresh and does not return, whatever
happens, as long as the refresh goes on. In the step in which the refresh is complete, with or
without an answer and whether or not it counts still, the calls in the queue are committed and
return, each in its turn. If the refresh was answered and the file has not been cleared since the
call, hence not since the refresh began, the list published by the commit shows exactly the
unresolved issues that are committed and the unresolved taint issues of the answer. -/
theorem succeed_waits_for_refresh (before : List Operation) (file : Url) (ticket : Nat) :
    let called := (run before .empty).1
    (called.unfinished? file = none →
      succeed file ticket called = ((commit file).andThen (emit [.returned ticket])) called) ∧
    ∀ generation, called.unfinished? file = some generation →
      let refresh : Refresh := { generation, file }
      let pending : WaitingCommit := { ticket, file, generation }
      let older := called.waitingFor generation
      refresh ∈ called.running ∧
      succeed file ticket called = ({ called with waiting := called.waiting ++ [pending] }, []) ∧
      ∀ later, (∀ answer, Operation.complete generation answer ∉ later) →
        let meanwhile := run later (succeed file ticket called).1
        (called.WaitsOnlyFor ticket generation → (∀ other, Operation.succeed other ticket ∉ later) →
          ticket ∉ returned meanwhile.2) ∧
        ∃ younger, meanwhile.1.waitingFor generation = older ++ pending :: younger ∧
          ∀ answer,
            let released := (each resume older (endRefresh refresh answer meanwhile.1).1).1
            complete generation answer meanwhile.1 =
              ((endRefresh refresh answer).andThen <| (each resume older).andThen <|
                (resume pending).andThen (each resume younger)) meanwhile.1 ∧
            returned (complete generation answer meanwhile.1).2 =
              (older ++ pending :: younger).map WaitingCommit.ticket ∧
            (resume pending released).1.committed.get? file = released.inProgress.get? file ∧
            ∀ issues, answer = some issues → Operation.clear file ∉ later →
              ∃ list, publications (resume pending released).2 = [(file, list)] ∧
                list.Perm
                  ((Diagnostic.unresolved ((released.inProgress.get? file).getD ∅)).map
                      (fun (id, found) => .ofLocal file id found.issue) ++
                    (issues.filter (!·.resolved)).map (.ofTaint file)) := by
  intro called
  obtain ⟨past, _⟩ := exists_chronicle_run before
  refine ⟨succeed_of_finished called ticket, fun generation unfinished => ?_⟩
  intro refresh pending older
  obtain ⟨live, registered⟩ := past.live_of_unfinished unfinished
  have waits := succeed_of_unfinished called ticket unfinished
  refine ⟨live, waits, fun later continues => ?_⟩
  intro meanwhile
  -- What the refresh keeps for later is the queue with the call at its end: others join behind it.
  have awaited : (succeed file ticket called).1.Awaited refresh (older ++ [pending]) := by
    rw [waits]
    have joins : [pending].filter (·.generation = refresh.generation) = [pending] := by
      simp [pending, refresh]
    refine ⟨live, ?_⟩
    rw [waitingFor, List.filter_append, joins]
    exact List.prefix_rfl
  obtain ⟨reached, _⟩ := (past.next (.succeed file ticket) trivial).leadsTo_run later
  obtain ⟨liveStill, younger, queue⟩ := awaited_run continues awaited
  rw [List.append_assoc, List.singleton_append] at queue
  refine ⟨fun foreign others => ?_, younger, queue.symm, fun answer => ?_⟩
  · have goesOn : ∀ answer, Operation.complete refresh.generation answer ∉ later := continues
    apply not_returned_run goesOn _ others
    rw [waits]
    intro other member same
    rcases List.mem_append.mp member with earlier | last
    · exact foreign other earlier same
    · rw [List.mem_singleton.mp last]
  · intro released
    have ends : complete generation answer meanwhile.1 = ((endRefresh refresh answer).andThen
        (each resume (older ++ pending :: younger))) meanwhile.1 := by
      rw [queue]
      exact reached.complete_of_live liveStill answer
    refine ⟨?_, ?_, committed_resume pending, fun issues answered uncleared => ?_⟩
    · rw [ends, each_append, each_cons]
    · rw [ends, andThen_apply, returned_append,
        (onlyShow_endRefresh _ _ _).returned, returned_each_resume]
      rfl
    · subst answered
      have counts : meanwhile.1.registered.get? refresh.file = some refresh.generation := by
        apply registered_run continues awaited.live _ uncleared
        rw [waits]
        exact registered
      obtain ⟨seen, left⟩ := endRefresh_fst_of_registered meanwhile.1 issues counts
      -- Commits leave the store, so the answer is still there when the turn of the call has come.
      have taint : released.taint.get file = issues.filter (!·.resolved) := by
        rw [taint_each_resume, left]
        exact TaintStore.get_reload_self _ _ _
      refine ⟨_, publications_resume pending, ?_⟩
      change (Diagnostic.ofIssues file ((released.inProgress.get? file).getD ∅)
        (released.taint.get file)).Perm _
      rw [taint]
      exact Diagnostic.ofIssues_perm file _ _

end IssueRelay.Cache
