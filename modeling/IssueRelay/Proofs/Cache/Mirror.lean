import IssueRelay.Proofs.Cache.Frame
import IssueRelay.Proofs.Cache.WaitingCommit
import IssueRelay.Proofs.Diagnostic.Renaming

/-!
# The same file in two caches

Identifiers and generations are counted over all files, so what a cache holds of one file depends on
the others only in these numbers. Two caches that hold the same of a file but for the numbers still
do so when the same happens to it in both (`IssueRelay.Cache.mirrors_act`), and when anything
happens to other files in one of them (`IssueRelay.Cache.Mirrors.of_elsewhere`).
-/

namespace IssueRelay

/-- The refresh under another generation. -/
def Refresh.renumber (g : Nat → Nat) (refresh : Refresh) : Refresh :=
  { refresh with generation := g refresh.generation }

/-- The commit that waits for a refresh under another generation. -/
def WaitingCommit.renumber (g : Nat → Nat) (pending : WaitingCommit) : WaitingCommit :=
  { pending with generation := g pending.generation }

namespace Cache

/-- The action with other generations. -/
def Action.renumber (g : Nat → Nat) : Action → Action
  | .resume pending => .resume (pending.renumber g)
  | .finish refresh answer => .finish (refresh.renumber g) answer
  | action => action

/-- A cache holds of a file what another one holds, under other identifiers and generations. -/
structure Mirrors (f : IssueId → IssueId) (g : Nat → Nat) (file : Url) (own other : Cache) :
    Prop where
  inProgress : other.inProgress.get? file = (own.inProgress.get? file).map (IssueSet.rename f)
  committed : other.committed.get? file = (own.committed.get? file).map (IssueSet.rename f)
  taint : other.taint.get file = own.taint.get file
  registered : other.registered.get? file = (own.registered.get? file).map g
  running : other.running.filter (·.file = file) =
    (own.running.filter (·.file = file)).map (Refresh.renumber g)
  waiting : other.waiting.filter (·.file = file) =
    (own.waiting.filter (·.file = file)).map (WaitingCommit.renumber g)

/-- The identifiers and generations that a cache holds of a file are among given ones. -/
structure Names (file : Url) (ids : List IssueId) (generations : List Nat) (cache : Cache) :
    Prop where
  inProgress : ∀ name ∈ ((cache.inProgress.get? file).getD ∅).keys, name ∈ ids
  committed : ∀ name ∈ ((cache.committed.get? file).getD ∅).keys, name ∈ ids
  registered : ∀ generation, cache.registered.get? file = some generation →
    generation ∈ generations
  running : ∀ refresh ∈ cache.running, refresh.file = file → refresh.generation ∈ generations
  waiting : ∀ pending ∈ cache.waiting, pending.file = file → pending.generation ∈ generations

variable {f : IssueId → IssueId} {g : Nat → Nat} {file : Url} {own other cache : Cache}
  {ids : List IssueId} {generations : List Nat}

/-- Identifiers that occur among some occur among more. -/
theorem Names.mono {more : List IssueId} (names : Names file ids generations cache)
    (among : ids ⊆ more) : Names file more generations cache :=
  ⟨fun name member => among (names.inProgress name member),
    fun name member => among (names.committed name member), names.registered, names.running,
    names.waiting⟩

/-- Two empty caches mirror each other under any renaming. -/
theorem mirrors_empty : Mirrors f g file .empty .empty :=
  ⟨rfl, rfl, rfl, rfl, rfl, rfl⟩

/-! ## What happens elsewhere -/

/-- What happens to other files makes no difference to a file. -/
theorem Mirrors.of_elsewhere (mirrors : Mirrors f g file own other) {action : Action}
    (elsewhere : action.subject? ≠ some file) :
    Mirrors f g file (act action own).1 other where
  inProgress := by rw [(buffers_act_of_elsewhere elsewhere).1, mirrors.inProgress]
  committed := by rw [(buffers_act_of_elsewhere elsewhere).2, mirrors.committed]
  taint := by rw [(refreshes_act_of_elsewhere elsewhere).1, mirrors.taint]
  registered := by rw [(refreshes_act_of_elsewhere elsewhere).2, mirrors.registered]
  running := by rw [runningOf_act_of_elsewhere elsewhere, mirrors.running]
  waiting := by rw [waitingOf_act_of_elsewhere elsewhere, mirrors.waiting]

/-- What happens to other files in the second cache alone keeps the mirror. -/
theorem Mirrors.of_elsewhere_other (mirrors : Mirrors f g file own other) {action : Action}
    (elsewhere : action.subject? ≠ some file) :
    Mirrors f g file own (act action other).1 where
  inProgress := by rw [(buffers_act_of_elsewhere elsewhere).1, mirrors.inProgress]
  committed := by rw [(buffers_act_of_elsewhere elsewhere).2, mirrors.committed]
  taint := by rw [(refreshes_act_of_elsewhere elsewhere).1, mirrors.taint]
  registered := by rw [(refreshes_act_of_elsewhere elsewhere).2, mirrors.registered]
  running := by rw [runningOf_act_of_elsewhere elsewhere, mirrors.running]
  waiting := by rw [waitingOf_act_of_elsewhere elsewhere, mirrors.waiting]

/-! ## What is seen of a file -/

/-- The set that a reader sees of the file is mirrored. -/
theorem Mirrors.current (mirrors : Mirrors f g file own other) :
    other.current file = (own.current file).rename f := by
  unfold Cache.current
  rw [mirrors.inProgress, mirrors.committed]
  cases own.inProgress.get? file with
  | some issues => rfl
  | none => cases own.committed.get? file <;> rfl

/-- The identifiers that a reader sees of the file are among those named. -/
theorem Names.current (names : Names file ids generations cache) :
    ∀ name ∈ (cache.current file).keys, name ∈ ids := by
  intro name member
  unfold Cache.current at member
  split at member
  · rename_i issues found
    apply names.inProgress
    rwa [found]
  · exact names.committed name member

/-- The list that an editor ought to see of the file is mirrored. -/
theorem Mirrors.shown (mirrors : Mirrors f g file own other) (keeps : KeepsOrder f ids)
    (named : ∀ id ∈ (own.current file).keys, id ∈ ids) :
    other.shown file = (own.shown file).map (Diagnostic.rename f) := by
  rw [Cache.shown, Cache.shown, mirrors.current, mirrors.taint,
    Diagnostic.ofIssues_rename file keeps named]

/-- Whether the registered refresh of a file is under way is told by the refreshes of the file
alone. -/
theorem Chronicle.isRunning_of_registered (past : Chronicle cache) {generation : Nat}
    (found : cache.registered.get? file = some generation) :
    cache.isRunning generation =
      (cache.running.filter (·.file = file)).any (·.generation = generation) := by
  rw [isRunning, List.any_filter, Bool.eq_iff_iff, List.any_eq_true, List.any_eq_true]
  constructor
  · rintro ⟨refresh, live, same⟩
    have own := past.registry.eq_of_generation file refresh live _
      (past.registry.begun_of_registered file generation found) (of_decide_eq_true same)
    exact ⟨refresh, live, by rw [own]; simp⟩
  · rintro ⟨refresh, live, both⟩
    exact ⟨refresh, live, (Bool.and_eq_true_iff.mp both).2⟩

section Generations

variable (injective : Set.InjOn g {generation | generation ∈ generations})

include injective

/-- A refresh is registered in the one cache exactly if its image is in the other. -/
theorem Mirrors.registered_iff (mirrors : Mirrors f g file own other)
    (names : Names file ids generations own) {generation : Nat}
    (known : generation ∈ generations) :
    other.registered.get? file = some (g generation) ↔
      own.registered.get? file = some generation := by
  rw [mirrors.registered, Option.map_eq_some_iff]
  constructor
  · rintro ⟨registered, found, same⟩
    rw [found, injective (names.registered registered found) known same]
  · exact fun found => ⟨generation, found, rfl⟩

/-- The refresh for which a commit of the file would wait is mirrored. -/
theorem Mirrors.unfinished? (mirrors : Mirrors f g file own other) (left : Chronicle own)
    (right : Chronicle other) (names : Names file ids generations own) :
    other.unfinished? file = (own.unfinished? file).map g := by
  rw [Cache.unfinished?, Cache.unfinished?]
  cases found : own.registered.get? file with
  | none =>
      rw [mirrors.registered, found]
      rfl
  | some generation =>
      have foundThere : other.registered.get? file = some (g generation) := by
        rw [mirrors.registered, found]
        rfl
      have same : other.isRunning (g generation) = own.isRunning generation := by
        rw [left.isRunning_of_registered found, right.isRunning_of_registered foundThere,
          mirrors.running, List.any_map, Bool.eq_iff_iff, List.any_eq_true, List.any_eq_true]
        refine exists_congr fun refresh => and_congr_right fun member => ?_
        obtain ⟨live, of⟩ := List.mem_filter.mp member
        have known := names.running refresh live (of_decide_eq_true of)
        have here := names.registered generation found
        rw [Function.comp_apply, decide_eq_true_iff, decide_eq_true_iff]
        exact ⟨injective known here, congrArg g⟩
      rw [foundThere, Option.filter_some, Option.filter_some, same]
      split <;> rfl

/-- The file is being refreshed in both caches or in neither. -/
theorem Mirrors.isUpdating (mirrors : Mirrors f g file own other) (left : Chronicle own)
    (right : Chronicle other) (names : Names file ids generations own) :
    other.isUpdating file = own.isUpdating file := by
  rw [Cache.isUpdating, Cache.isUpdating, mirrors.unfinished? injective left right names,
    Option.isSome_map]

/-- Taking a refresh out and renumbering the others can be exchanged, since no two have the same
number. -/
theorem filter_renumber {refresh : Refresh} (known : refresh.generation ∈ generations)
    {refreshes : List Refresh} (among : ∀ other ∈ refreshes, other.generation ∈ generations) :
    (refreshes.map (Refresh.renumber g)).filter (· ≠ refresh.renumber g) =
      (refreshes.filter (· ≠ refresh)).map (Refresh.renumber g) := by
  rw [List.filter_map]
  congr 1
  apply List.filter_congr
  intro other member
  have same : other.renumber g = refresh.renumber g ↔ other = refresh := by
    obtain ⟨generation, file⟩ := other
    obtain ⟨ended, of⟩ := refresh
    simp only [Refresh.renumber, Refresh.mk.injEq]
    exact and_congr_left fun _ => ⟨injective (among _ member) known, congrArg g⟩
  simp [same]

/-- Taking a waiting commit out and renumbering the others can be exchanged. -/
theorem erase_renumber {pending : WaitingCommit} (known : pending.generation ∈ generations)
    {pendings : List WaitingCommit}
    (among : ∀ other ∈ pendings, other.generation ∈ generations) :
    (pendings.map (WaitingCommit.renumber g)).erase (pending.renumber g) =
      (pendings.erase pending).map (WaitingCommit.renumber g) := by
  induction pendings with
  | nil => rfl
  | cons other rest ih =>
      have same : other.renumber g = pending.renumber g ↔ other = pending := by
        have first := among other List.mem_cons_self
        obtain ⟨ticket, file, generation⟩ := other
        obtain ⟨of, done, ended⟩ := pending
        simp only [WaitingCommit.renumber, WaitingCommit.mk.injEq]
        exact and_congr_right fun _ => and_congr_right fun _ =>
          ⟨injective first known, congrArg g⟩
      rw [List.map_cons, List.erase_cons, List.erase_cons,
        ih fun other member => among other (List.mem_cons_of_mem _ member)]
      by_cases equal : other = pending
      · simp [equal]
      · simp [equal, same]

end Generations

/-! ## What passes do -/

section Passes

variable (mirrors : Mirrors f g file own other)

include mirrors

/-- Dropping what is in progress keeps the mirror. -/
theorem mirrors_dropPass : Mirrors f g file (dropPass file own) (dropPass file other) where
  inProgress := by
    rw [dropPass, dropPass, Dictionary.get?_erase_self, Dictionary.get?_erase_self]
    rfl
  committed := mirrors.committed
  taint := mirrors.taint
  registered := mirrors.registered
  running := mirrors.running
  waiting := mirrors.waiting

/-- A report in both caches keeps the mirror if the next identifiers correspond. -/
theorem mirrors_addIssue (keeps : KeepsOrder f ids) (names : Names file ids generations own)
    {document : Document} (same : document.uri = file) (issue : Issue)
    (named : own.nextId ∈ ids) (next : f own.nextId = other.nextId) :
    Mirrors f g file (addIssue document issue own) (addIssue document issue other) := by
  subst same
  have before : (other.inProgress.get? document.uri).getD ∅ =
      IssueSet.rename f ((own.inProgress.get? document.uri).getD ∅) := by
    rw [mirrors.inProgress]
    cases own.inProgress.get? document.uri <;> rfl
  refine ⟨?_, mirrors.committed, mirrors.taint, mirrors.registered, mirrors.running,
    mirrors.waiting⟩
  rw [inProgress_addIssue_self, inProgress_addIssue_self, before, ← next,
    IssueSet.insert_rename keeps names.inProgress named]
  rfl

omit mirrors in
/-- A report adds its identifier to those that occur. -/
theorem names_addIssue (names : Names file ids generations own) {document : Document}
    (same : document.uri = file) (issue : Issue) (named : own.nextId ∈ ids) :
    Names file ids generations (addIssue document issue own) := by
  subst same
  refine ⟨?_, names.committed, names.registered, names.running, names.waiting⟩
  rw [inProgress_addIssue_self, Option.getD_some]
  intro name member
  rcases List.mem_cons.mp member with rfl | earlier
  · exact named
  · obtain ⟨entry, kept, rfl⟩ := List.mem_map.mp earlier
    exact names.inProgress _ (List.mem_map_of_mem (List.mem_of_mem_filter kept))

omit mirrors in
/-- Tracking does not see identifiers, so it can be exchanged with a renaming that keeps their
order. -/
theorem retrack_rename (keeps : KeepsOrder f ids) {issues : IssueSet}
    (within : ∀ name ∈ issues.keys, name ∈ ids) (known : List ServerIssue) :
    retrack known (issues.rename f) = (retrack known issues).rename f := by
  have named : ∀ name ∈ issues.inOrder.map Prod.fst, name ∈ ids := fun name member =>
    within name ((issues.inOrder_perm.map Prod.fst).subset member)
  rw [retrack, retrack, IssueSet.inOrder_rename keeps within, List.map_map, List.map_map,
    ← IssueSet.takeOver_rename keeps within named, List.map_map]
  rfl

/-- Tracking with the same server issues keeps the mirror. -/
theorem mirrors_trackIssues (keeps : KeepsOrder f ids) (names : Names file ids generations own)
    (known : List ServerIssue) :
    Mirrors f g file (trackIssues file known own) (trackIssues file known other) := by
  cases found : own.inProgress.get? file with
  | none =>
      have absent : other.inProgress.get? file = none := by rw [mirrors.inProgress, found]; rfl
      rw [trackIssues, trackIssues, found, absent]
      exact mirrors
  | some issues =>
      have within : ∀ name ∈ issues.keys, name ∈ ids := by
        intro name member
        apply names.inProgress
        rwa [found]
      have present : other.inProgress.get? file = some (issues.rename f) := by
        rw [mirrors.inProgress, found]
        rfl
      rw [trackIssues, trackIssues, found, present]
      refine ⟨?_, mirrors.committed, mirrors.taint, mirrors.registered, mirrors.running,
        mirrors.waiting⟩
      rw [Dictionary.get?_insert_self, Dictionary.get?_insert_self, retrack_rename keeps within]
      rfl

/-- Showing the file keeps the mirror. -/
theorem mirrors_publish : Mirrors f g file (publish file own).1 (publish file other).1 := by
  obtain ⟨seen, left⟩ := publish_fst own file
  obtain ⟨seenThere, leftThere⟩ := publish_fst other file
  rw [left, leftThere]
  exact ⟨mirrors.inProgress, mirrors.committed, mirrors.taint, mirrors.registered,
    mirrors.running, mirrors.waiting⟩

/-- A commit in both caches keeps the mirror. -/
theorem mirrors_commit : Mirrors f g file (commit file own).1 (commit file other).1 := by
  obtain ⟨seen, left⟩ := commit_fst own file
  obtain ⟨seenThere, leftThere⟩ := commit_fst other file
  rw [left, leftThere]
  refine ⟨?_, ?_, mirrors.taint, mirrors.registered, mirrors.running, mirrors.waiting⟩
  · rw [inProgress_commitIssues_self, inProgress_commitIssues_self]
    rfl
  · rw [committed_commitIssues_self, committed_commitIssues_self]
    exact mirrors.inProgress

/-- Forgetting the file in both caches keeps the mirror. -/
theorem mirrors_clear : Mirrors f g file (clear file own).1 (clear file other).1 := by
  rw [clear_fst, clear_fst]
  refine ⟨?_, ?_, ?_, ?_, mirrors.running, mirrors.waiting⟩
  · rw [Dictionary.get?_erase_self, Dictionary.get?_erase_self]
    rfl
  · rw [Dictionary.get?_erase_self, Dictionary.get?_erase_self]
    rfl
  · rw [TaintStore.get_remove_self, TaintStore.get_remove_self]
  · rw [Dictionary.get?_erase_self, Dictionary.get?_erase_self]
    rfl

end Passes

/-! ## What refreshes do -/

section Refreshes

variable (mirrors : Mirrors f g file own other)

include mirrors

/-- A commit that has to wait in both caches, for corresponding refreshes, keeps the mirror. -/
theorem mirrors_wait {ticket generation : Nat} :
    Mirrors f g file { own with waiting := own.waiting ++ [⟨ticket, file, generation⟩] }
      { other with waiting := other.waiting ++ [⟨ticket, file, g generation⟩] } := by
  refine ⟨mirrors.inProgress, mirrors.committed, mirrors.taint, mirrors.registered,
    mirrors.running, ?_⟩
  dsimp only
  rw [List.filter_append, List.filter_append, mirrors.waiting, List.map_append]
  simp [WaitingCommit.renumber]

/-- A refresh that begins in both caches under corresponding numbers keeps the mirror. -/
theorem mirrors_begin (refresh : Refresh) (same : refresh.file = file) (after afterThere : Nat) :
    Mirrors f g file
      { own with
        registered := own.registered.insert refresh.file refresh.generation
        running := own.running ++ [refresh]
        nextGeneration := after }
      { other with
        registered := other.registered.insert refresh.file (g refresh.generation)
        running := other.running ++ [refresh.renumber g]
        nextGeneration := afterThere } := by
  subst same
  refine ⟨mirrors.inProgress, mirrors.committed, mirrors.taint, ?_, ?_, mirrors.waiting⟩
  · dsimp only
    rw [Dictionary.get?_insert_self, Dictionary.get?_insert_self]
    rfl
  · dsimp only
    rw [List.filter_append, List.filter_append, mirrors.running, List.map_append]
    simp [Refresh.renumber]

/-- The same taint issues in both caches keep the mirror. -/
theorem mirrors_reload (issues : List TaintIssue) :
    Mirrors f g file (reloadTaint file issues own) (reloadTaint file issues other) := by
  refine ⟨mirrors.inProgress, mirrors.committed, ?_, mirrors.registered, mirrors.running,
    mirrors.waiting⟩
  rw [reloadTaint, reloadTaint, TaintStore.get_reload_self, TaintStore.get_reload_self]

/-- Taking corresponding commits out of the queues keeps the mirror. -/
theorem mirrors_resumed
    (injective : Set.InjOn g {generation | generation ∈ generations})
    (names : Names file ids generations own) {pending : WaitingCommit}
    (waits : pending ∈ own.waiting) (same : pending.file = file) :
    Mirrors f g file { own with waiting := own.waiting.erase pending }
      { other with waiting := other.waiting.erase (pending.renumber g) } := by
  refine ⟨mirrors.inProgress, mirrors.committed, mirrors.taint, mirrors.registered,
    mirrors.running, ?_⟩
  dsimp only
  rw [← List.erase_filter, ← List.erase_filter, mirrors.waiting]
  apply erase_renumber injective (names.waiting pending waits same)
  intro another member
  obtain ⟨waitsToo, of⟩ := List.mem_filter.mp member
  exact names.waiting another waitsToo (of_decide_eq_true of)

/-- Taking corresponding refreshes out of those under way keeps the mirror. -/
theorem mirrors_ended
    (injective : Set.InjOn g {generation | generation ∈ generations})
    (names : Names file ids generations own) {refresh : Refresh} (live : refresh ∈ own.running)
    (same : refresh.file = file) :
    Mirrors f g file { own with running := own.running.filter (· ≠ refresh) }
      { other with running := other.running.filter (· ≠ refresh.renumber g) } := by
  refine ⟨mirrors.inProgress, mirrors.committed, mirrors.taint, mirrors.registered, ?_,
    mirrors.waiting⟩
  dsimp only
  rw [List.filter_comm, mirrors.running, List.filter_comm]
  apply filter_renumber injective (names.running refresh live same)
  intro another member
  obtain ⟨liveToo, of⟩ := List.mem_filter.mp member
  exact names.running another liveToo (of_decide_eq_true of)

/-- Corresponding refreshes that end with the same answer keep the mirror. -/
theorem mirrors_finish
    (injective : Set.InjOn g {generation | generation ∈ generations})
    (names : Names file ids generations own) {refresh : Refresh} (live : refresh ∈ own.running)
    (same : refresh.file = file) (answer : Option (List TaintIssue)) :
    Mirrors f g file (endRefresh refresh answer own).1
      (endRefresh (refresh.renumber g) answer other).1 := by
  have ended := mirrors_ended mirrors injective names live same
  subst same
  -- The answer counts in both caches or in neither.
  have both : other.registered.get? (refresh.renumber g).file =
        some (refresh.renumber g).generation ↔
      own.registered.get? refresh.file = some refresh.generation :=
    mirrors.registered_iff injective names (names.running refresh live rfl)
  by_cases registered : own.registered.get? refresh.file = some refresh.generation
  · cases answer with
    | none => exact ended
    | some issues =>
        obtain ⟨seen, left⟩ := endRefresh_fst_of_registered own issues registered
        obtain ⟨seenThere, leftThere⟩ :=
          endRefresh_fst_of_registered other issues (both.mpr registered)
        rw [left, leftThere]
        have reloaded := mirrors_reload mirrors issues
        exact ⟨ended.inProgress, ended.committed, reloaded.taint, ended.registered,
          ended.running, ended.waiting⟩
  · rw [endRefresh_of_unregistered own answer registered,
      endRefresh_of_unregistered other answer (mt both.mp registered)]
    exact ended

end Refreshes

/-- What happens to a file in both caches leaves them alike. -/
theorem mirrors_act (mirrors : Mirrors f g file own other) (left : Chronicle own)
    (right : Chronicle other) (keeps : KeepsOrder f ids)
    (injective : Set.InjOn g {generation | generation ∈ generations})
    (names : Names file ids generations own) {action : Action}
    (subject : action.subject? = some file) (possible : action.Possible own)
    (reports : ∀ report, action.reported? own = some report →
      own.nextId ∈ ids ∧ f own.nextId = other.nextId)
    (next : g own.nextGeneration = other.nextGeneration) :
    Mirrors f g file (act action own).1 (act (action.renumber g) other).1 := by
  cases action with
  | start started | fail failed =>
      obtain rfl := Option.some.inj subject
      exact mirrors_dropPass mirrors
  | report document issue =>
      obtain rfl := Option.some.inj subject
      obtain ⟨named, nextId⟩ := reports _ rfl
      exact mirrors_publish (mirrors_addIssue mirrors keeps names rfl issue named nextId)
  | reportTracked document issue known =>
      obtain rfl := Option.some.inj subject
      obtain ⟨named, nextId⟩ := reports _ rfl
      exact mirrors_publish (mirrors_trackIssues
        (mirrors_addIssue mirrors keeps names rfl issue named nextId) keeps
        (names_addIssue names rfl issue named) known)
  | succeed succeeded ticket =>
      obtain rfl := Option.some.inj subject
      have there := mirrors.unfinished? injective left right names
      change Mirrors f g succeeded (succeed succeeded ticket own).1
        (succeed succeeded ticket other).1
      cases unfinished : own.unfinished? succeeded with
      | some generation =>
          rw [unfinished] at there
          rw [succeed_of_unfinished own ticket unfinished,
            succeed_of_unfinished other ticket there]
          exact mirrors_wait mirrors
      | none =>
          rw [unfinished] at there
          rw [succeed_of_finished own ticket unfinished, succeed_of_finished other ticket there]
          exact mirrors_commit mirrors
  | resume pending =>
      obtain rfl := Option.some.inj subject
      exact mirrors_commit (mirrors_resumed mirrors injective names possible.1 rfl)
  | clear cleared =>
      obtain rfl := Option.some.inj subject
      exact mirrors_clear mirrors
  | schedule server document =>
      obtain rfl := Option.some.inj subject
      have there := mirrors.isUpdating injective left right names
      change Mirrors f g document.uri (scheduleOne server document own).1
        (scheduleOne server document other).1
      cases updating : own.isUpdating document.uri with
      | true =>
          rw [updating] at there
          rw [scheduleOne_of_updating own server updating,
            scheduleOne_of_updating other server there]
          exact mirrors
      | false =>
          rw [updating] at there
          rw [scheduleOne_of_idle own server updating, scheduleOne_of_idle other server there]
          rw [← next]
          exact mirrors_begin mirrors ⟨own.nextGeneration, document.uri⟩ rfl _ _
  | finish refresh answer =>
      obtain rfl := Option.some.inj subject
      exact mirrors_finish mirrors injective names possible rfl answer
  | seedSecretSeen seen => cases subject

end Cache
end IssueRelay
