import IssueRelay.Proofs.Cache.Chronicle
import Mathlib.Data.List.Find

/-!
# The life of a refresh

A refresh is registered when it begins and counts as long as its file is not cleared. The cache
tells this by its generation alone, and that is enough: a refresh that is under way is registered
exactly if it has begun since its file was last cleared
(`IssueRelay.Cache.Chronicle.registered_iff`). So what is known of the taint issues of a file is
the last answer that counts (`IssueRelay.Cache.Chronicle.taint_eq_lastAnswer`). A counter of 64 bits
in the place of the generation would decide the same until it has come around
(`IssueRelay.Cache.Chronicle.applyNumbered_eq`).
-/

namespace IssueRelay.Cache

open Transition

variable {cache : Cache}

/-- A file is being refreshed if its registered refresh is under way. -/
theorem isUpdating_iff {file : Url} :
    cache.isUpdating file = true ↔
      ∃ refresh ∈ cache.running, cache.registered.get? file = some refresh.generation := by
  refine ⟨fun updating => ?_, ?_⟩
  · obtain ⟨generation, unfinished⟩ := Option.isSome_iff_exists.mp updating
    obtain ⟨found, running⟩ := Option.filter_eq_some_iff.mp unfinished
    obtain ⟨refresh, live, same⟩ := List.any_eq_true.mp running
    exact ⟨refresh, live, by rw [found, of_decide_eq_true same]⟩
  · rintro ⟨refresh, live, found⟩
    have running : cache.isRunning refresh.generation = true :=
      List.any_eq_true.mpr ⟨refresh, live, decide_eq_true rfl⟩
    simp [isUpdating, unfinished?, found, running]

/-- A file is being refreshed when a refresh of it has been scheduled, whether it was before or
not. -/
theorem isUpdating_scheduleOne_self (cache : Cache) (server : Binding) (document : Document) :
    (scheduleOne server document cache).1.isUpdating document.uri = true := by
  cases updating : cache.isUpdating document.uri with
  | true => rwa [scheduleOne_of_updating cache server updating]
  | false =>
      rw [scheduleOne_of_idle cache server updating]
      refine isUpdating_iff.mpr ⟨⟨cache.nextGeneration, document.uri⟩, ?_, ?_⟩
      · exact List.mem_append_right _ (List.mem_singleton_self _)
      · exact Dictionary.get?_insert_self _ _ _

namespace Chronicle

/-- The refreshes of a file that have begun since it was last cleared. -/
def begunSinceClear (file : Url) : {cache : Cache} → Chronicle cache → List Refresh
  | _, .beginning => []
  | _, @next cache past action _ =>
    (if action.clears file then [] else past.begunSinceClear file) ++
      (begun (act action cache).2).filter (·.file = file)

/-- The refreshes that have ended with an answer, in the order in which they have ended. -/
def answers : {cache : Cache} → Chronicle cache → List (Refresh × List TaintIssue)
  | _, .beginning => []
  | _, .next past action _ => past.answers ++ action.answer?.toList

/-- The unresolved issues in the last answer to a refresh of a file that has begun since the file
was last cleared; none if there is no such answer. -/
def lastAnswer (file : Url) (past : Chronicle cache) : List TaintIssue :=
  match past.answers.reverse.find? fun answer => answer.1 ∈ past.begunSinceClear file with
  | some (_, issues) => issues.filter (!·.resolved)
  | none => []

/-- What is recorded of refreshes is in order: generations are given once, each registered refresh
has begun since its file was cleared, and each of those that is under way is registered. -/
structure Registry (past : Chronicle cache) : Prop where
  distinct : (cache.running.map Refresh.generation).Nodup
  running_lt : ∀ refresh ∈ cache.running, refresh.generation < cache.nextGeneration
  begun_file : ∀ file, ∀ refresh ∈ past.begunSinceClear file, refresh.file = file
  begun_lt : ∀ file, ∀ refresh ∈ past.begunSinceClear file,
    refresh.generation < cache.nextGeneration
  answers_lt : ∀ answer ∈ past.answers, answer.1.generation < cache.nextGeneration
  begun_of_registered : ∀ file generation, cache.registered.get? file = some generation →
    ⟨generation, file⟩ ∈ past.begunSinceClear file
  registered_of_begun : ∀ file, ∀ refresh ∈ cache.running, refresh ∈ past.begunSinceClear file →
    cache.registered.get? file = some refresh.generation
  eq_of_generation : ∀ file, ∀ refresh ∈ cache.running, ∀ other ∈ past.begunSinceClear file,
    refresh.generation = other.generation → refresh = other

/-- A refresh that begins is one more that has begun since its file was cleared. -/
private theorem mem_begunSinceClear_of_begins {past : Chronicle cache} {action : Action}
    {possible : action.Possible cache} {refresh : Refresh}
    (begins : begun (act action cache).2 = [refresh]) (clears : ∀ file, action.clears file = false)
    (file : Url) (other : Refresh) :
    other ∈ (past.next action possible).begunSinceClear file ↔
      other ∈ past.begunSinceClear file ∨ other = refresh ∧ refresh.file = file := by
  rw [begunSinceClear, begins, clears, if_neg Bool.false_ne_true, List.mem_append,
    List.mem_filter, List.mem_singleton, decide_eq_true_eq]
  apply or_congr Iff.rfl
  apply and_congr_right
  rintro rfl
  exact Iff.rfl

/-- An action that begins no refresh and clears no file leaves those that have begun. -/
private theorem begunSinceClear_of_quiet {past : Chronicle cache} {action : Action}
    {possible : action.Possible cache} (begins : begun (act action cache).2 = [])
    (clears : ∀ file, action.clears file = false) (file : Url) :
    (past.next action possible).begunSinceClear file = past.begunSinceClear file := by
  simp [begunSinceClear, begins, clears]

/-- A clear forgets which refreshes of its file have begun. -/
private theorem begunSinceClear_of_clear {past : Chronicle cache} {action : Action}
    {possible : action.Possible cache} {file : Url} (begins : begun (act action cache).2 = [])
    (clears : ∀ other, action.clears other = decide (file = other)) (other : Url) :
    (past.next action possible).begunSinceClear other =
      if other = file then [] else past.begunSinceClear other := by
  simp [begunSinceClear, begins, clears, eq_comm]

/-- An action that brings no answer adds none. -/
private theorem answers_of_silent {past : Chronicle cache} {action : Action}
    {possible : action.Possible cache} (silent : action.answer? = none) :
    (past.next action possible).answers = past.answers := by
  simp [answers, silent]

/-- A refresh that begins is the latest of its file, and all others are older. -/
private theorem Registry.start {past : Chronicle cache} (registry : past.Registry)
    {action : Action} {possible : action.Possible cache} {refresh : Refresh}
    (begins : begun (act action cache).2 = [refresh])
    (fresh : refresh.generation = cache.nextGeneration)
    (idle : cache.isUpdating refresh.file = false) (silent : action.answer? = none)
    (clears : ∀ file, action.clears file = false)
    (left : (act action cache).1 =
      { cache with
        registered := cache.registered.insert refresh.file refresh.generation
        running := cache.running ++ [refresh]
        nextGeneration := cache.nextGeneration + 1 }) :
    (past.next action possible).Registry := by
  have since : ∀ file other, other ∈ (past.next action possible).begunSinceClear file ↔ _ :=
    mem_begunSinceClear_of_begins begins clears
  have answered : (past.next action possible).answers = past.answers := answers_of_silent silent
  have registered := congrArg Cache.registered left
  have running := congrArg Cache.running left
  have nextGeneration := congrArg Cache.nextGeneration left
  have older : ∀ file, ∀ other ∈ past.begunSinceClear file,
      other.generation < cache.nextGeneration + 1 :=
    fun file other member => Nat.lt_succ_of_lt (registry.begun_lt file other member)
  refine ⟨?_, ?_, ?_, ?_, ?_, ?_, ?_, ?_⟩
  · rw [running, List.map_append, List.map_singleton]
    apply List.nodup_append.mpr
    refine ⟨registry.distinct, List.nodup_singleton _, ?_⟩
    rintro _ member _ last rfl
    obtain ⟨other, live, same⟩ := List.mem_map.mp member
    have := registry.running_lt other live
    rw [List.mem_singleton] at last
    omega
  · rw [running, nextGeneration]
    intro other member
    rcases List.mem_append.mp member with earlier | last
    · exact Nat.lt_succ_of_lt (registry.running_lt other earlier)
    · rw [List.mem_singleton.mp last, fresh]
      exact Nat.lt_succ_self _
  · intro file other member
    rcases (since file other).mp member with earlier | ⟨rfl, same⟩
    · exact registry.begun_file file other earlier
    · exact same
  · rw [nextGeneration]
    intro file other member
    rcases (since file other).mp member with earlier | ⟨rfl, _⟩
    · exact older file other earlier
    · rw [fresh]
      exact Nat.lt_succ_self _
  · rw [nextGeneration, answered]
    exact fun answer member => Nat.lt_succ_of_lt (registry.answers_lt answer member)
  · rw [registered]
    intro file generation found
    apply (since file _).mpr
    by_cases same : file = refresh.file
    · subst same
      rw [Dictionary.get?_insert_self] at found
      obtain rfl := Option.some.inj found
      exact .inr ⟨rfl, rfl⟩
    · rw [Dictionary.get?_insert_of_ne _ _ same] at found
      exact .inl (registry.begun_of_registered file generation found)
  · rw [running, registered]
    intro file other live member
    rcases (since file other).mp member with earlier | ⟨rfl, rfl⟩
    · -- An older refresh of the same file would still be registered, hence unfinished.
      have before : other ∈ cache.running := by
        rcases List.mem_append.mp live with before | last
        · exact before
        · have := registry.begun_lt file other earlier
          rw [List.mem_singleton.mp last, fresh] at this
          omega
      have found := registry.registered_of_begun file other before earlier
      have different : file ≠ refresh.file := by
        rintro rfl
        rw [isUpdating_iff.mpr ⟨other, before, found⟩] at idle
        cases idle
      rw [Dictionary.get?_insert_of_ne _ _ different]
      exact found
    · exact Dictionary.get?_insert_self _ _ _
  · rw [running]
    intro file one live other member same
    rcases List.mem_append.mp live with before | last
    · rcases (since file other).mp member with earlier | ⟨rfl, _⟩
      · exact registry.eq_of_generation file one before other earlier same
      · have := registry.running_lt one before
        omega
    · obtain rfl := List.mem_singleton.mp last
      rcases (since file other).mp member with earlier | ⟨rfl, _⟩
      · have := registry.begun_lt file other earlier
        omega
      · rfl

/-- What is recorded stays in order while no refresh begins and no file is cleared. -/
private theorem Registry.quiet {past : Chronicle cache} (registry : past.Registry)
    {action : Action} {possible : action.Possible cache}
    (begins : begun (act action cache).2 = []) (clears : ∀ file, action.clears file = false)
    (registered : (act action cache).1.registered = cache.registered)
    (running : (act action cache).1.running.Sublist cache.running)
    (nextGeneration : (act action cache).1.nextGeneration = cache.nextGeneration)
    (answered : ∀ answer ∈ (past.next action possible).answers,
      answer.1.generation < cache.nextGeneration) :
    (past.next action possible).Registry := by
  have since : ∀ file, (past.next action possible).begunSinceClear file =
      past.begunSinceClear file := begunSinceClear_of_quiet begins clears
  refine ⟨registry.distinct.sublist (running.map _), ?_, ?_, ?_, ?_, ?_, ?_, ?_⟩
  · rw [nextGeneration]
    exact fun other live => registry.running_lt other (running.subset live)
  · simp only [since]
    exact registry.begun_file
  · simp only [since, nextGeneration]
    exact registry.begun_lt
  · rw [nextGeneration]
    exact answered
  · simp only [since, registered]
    exact registry.begun_of_registered
  · simp only [since, registered]
    exact fun file other live => registry.registered_of_begun file other (running.subset live)
  · simp only [since]
    exact fun file other live => registry.eq_of_generation file other (running.subset live)

/-- A file that is cleared has no registered refresh, whatever is still under way. -/
private theorem Registry.clear {past : Chronicle cache} (registry : past.Registry)
    {action : Action} {possible : action.Possible cache} {cleared : Url}
    (begins : begun (act action cache).2 = []) (silent : action.answer? = none)
    (clears : ∀ other, action.clears other = decide (cleared = other))
    (registered : (act action cache).1.registered = cache.registered.erase cleared)
    (running : (act action cache).1.running = cache.running)
    (nextGeneration : (act action cache).1.nextGeneration = cache.nextGeneration) :
    (past.next action possible).Registry := by
  have since : ∀ file, (past.next action possible).begunSinceClear file =
      if file = cleared then [] else past.begunSinceClear file :=
    begunSinceClear_of_clear begins clears
  have remains : ∀ file, ∀ refresh ∈ (past.next action possible).begunSinceClear file,
      file ≠ cleared ∧ refresh ∈ past.begunSinceClear file := by
    intro file refresh member
    rw [since] at member
    split at member
    · cases member
    · exact ⟨‹_›, member⟩
  refine ⟨running ▸ registry.distinct, ?_, ?_, ?_, ?_, ?_, ?_, ?_⟩
  · rw [running, nextGeneration]
    exact registry.running_lt
  · exact fun file refresh member =>
      registry.begun_file file refresh (remains file refresh member).2
  · rw [nextGeneration]
    exact fun file refresh member => registry.begun_lt file refresh (remains file refresh member).2
  · rw [nextGeneration, answers_of_silent silent]
    exact registry.answers_lt
  · rw [registered]
    intro file generation found
    have different : file ≠ cleared := by
      rintro rfl
      simp at found
    rw [Dictionary.get?_erase_of_ne _ different] at found
    rw [since, if_neg different]
    exact registry.begun_of_registered file generation found
  · rw [registered, running]
    intro file refresh live member
    obtain ⟨different, before⟩ := remains file refresh member
    rw [Dictionary.get?_erase_of_ne _ different]
    exact registry.registered_of_begun file refresh live before
  · rw [running]
    intro file refresh live other member
    exact registry.eq_of_generation file refresh live other (remains file other member).2

/-- After every chronicle, what is recorded of refreshes is in order. -/
theorem registry (past : Chronicle cache) : past.Registry := by
  induction past with
  | beginning =>
      refine ⟨List.nodup_nil, ?_, ?_, ?_, ?_, ?_, ?_, ?_⟩ <;>
        simp [Cache.empty, begunSinceClear, answers]
  | @next cache past action possible ih =>
      cases refreshChange cache action with
      | start refresh begins fresh idle silent clears left =>
          exact ih.start begins fresh idle silent clears left
      | finish refresh answer same begins clears registered running taint nextGeneration =>
          refine ih.quiet begins clears registered (running ▸ List.filter_sublist) nextGeneration ?_
          subst same
          intro other member
          rcases List.mem_append.mp member with earlier | last
          · exact ih.answers_lt other earlier
          · cases answer with
            | none => cases last
            | some issues =>
                obtain rfl : other = (refresh, issues) := List.mem_singleton.mp last
                exact ih.running_lt refresh possible
      | clear cleared clears begins silent registered running taint nextGeneration =>
          exact ih.clear begins silent clears registered running nextGeneration
      | none begins silent clears registered running taint nextGeneration =>
          apply ih.quiet begins clears registered (running ▸ .refl _) nextGeneration
          rw [answers_of_silent silent]
          exact ih.answers_lt

/-- A refresh that is under way is registered exactly if it has begun since its file was last
cleared. -/
theorem registered_iff (past : Chronicle cache) {refresh : Refresh}
    (live : refresh ∈ cache.running) :
    cache.registered.get? refresh.file = some refresh.generation ↔
      refresh ∈ past.begunSinceClear refresh.file :=
  ⟨past.registry.begun_of_registered _ _, past.registry.registered_of_begun _ _ live⟩

/-- The answers that count stay the same as long as no refresh of the file ends with one. -/
private theorem lastAnswer_congr {next : Cache} {past : Chronicle cache} {later : Chronicle next}
    {file : Url} (answers : later.answers = past.answers)
    (since : ∀ answer ∈ past.answers, answer.1 ∈ later.begunSinceClear file ↔
      answer.1 ∈ past.begunSinceClear file) :
    later.lastAnswer file = past.lastAnswer file := by
  have counted : ∀ answer ∈ past.answers.reverse,
      decide (answer.1 ∈ later.begunSinceClear file) =
        decide (answer.1 ∈ past.begunSinceClear file) := by
    intro answer member
    exact decide_eq_decide.mpr (since answer (List.mem_reverse.mp member))
  rw [lastAnswer, lastAnswer, answers, List.find?_congr counted]

/-- A refresh that ends with an answer that counts gives the taint issues of its file. -/
private theorem lastAnswer_of_finish (past : Chronicle cache) (refresh : Refresh)
    (issues : List TaintIssue) (live : refresh ∈ cache.running) (file : Url)
    (since : (past.next (.finish refresh (some issues)) live).begunSinceClear file =
      past.begunSinceClear file) :
    (past.next (.finish refresh (some issues)) live).lastAnswer file =
      if refresh ∈ past.begunSinceClear file then issues.filter (!·.resolved)
      else past.lastAnswer file := by
  have grown : (past.next (.finish refresh (some issues)) live).answers =
      past.answers ++ [(refresh, issues)] := rfl
  rw [lastAnswer, grown, since, List.reverse_append, List.reverse_singleton, List.singleton_append]
  by_cases counts : refresh ∈ past.begunSinceClear file
  · rw [List.find?_cons_of_pos (by simpa using counts), if_pos counts]
  · rw [List.find?_cons_of_neg (by simpa using counts), if_neg counts]
    rfl

/-- What is known of the taint issues of a file is the last answer that counts. -/
theorem taint_eq_lastAnswer (past : Chronicle cache) (file : Url) :
    cache.taint.get file = past.lastAnswer file := by
  induction past with
  | beginning => rfl
  | @next cache past action possible ih =>
      have registry := past.registry
      cases refreshChange cache action with
      | start refresh begins fresh idle silent clears left =>
          have taint := congrArg Cache.taint left
          rw [taint, lastAnswer_congr (answers_of_silent silent), ih]
          intro answer member
          rw [mem_begunSinceClear_of_begins begins clears]
          refine ⟨fun begun => begun.resolve_right ?_, .inl⟩
          rintro ⟨same, _⟩
          have older := registry.answers_lt answer member
          rw [same, fresh] at older
          exact Nat.lt_irrefl _ older
      | finish refresh answer same begins clears registered running taint nextGeneration =>
          subst same
          have since : (past.next (.finish refresh answer) possible).begunSinceClear file =
              past.begunSinceClear file := begunSinceClear_of_quiet begins clears file
          rw [taint]
          cases answer with
          | none =>
              rw [lastAnswer_congr (answers_of_silent rfl) (fun _ _ => by rw [since])]
              exact ih
          | some issues =>
              rw [lastAnswer_of_finish past refresh issues possible file since, taintAfter]
              by_cases counts : refresh ∈ past.begunSinceClear file
              · obtain rfl := registry.begun_file file refresh counts
                rw [if_pos counts, if_pos ((past.registered_iff possible).mpr counts),
                  TaintStore.get_reload_self]
              · rw [if_neg counts, ← ih]
                split
                · rename_i found
                  apply TaintStore.get_reload_of_ne
                  rintro rfl
                  exact counts ((past.registered_iff possible).mp found)
                · rfl
      | clear cleared clears begins silent registered running taint nextGeneration =>
          have since : (past.next action possible).begunSinceClear file =
              if file = cleared then [] else past.begunSinceClear file :=
            begunSinceClear_of_clear begins clears file
          rw [taint]
          by_cases same : file = cleared
          · rw [if_pos same] at since
            have unanswered : (past.next action possible).answers.reverse.find? (fun answer =>
                answer.1 ∈ (past.next action possible).begunSinceClear file) = none := by
              simp [since]
            rw [same, TaintStore.get_remove_self, ← same, lastAnswer, unanswered]
          · rw [if_neg same] at since
            rw [TaintStore.get_remove_of_ne _ same, ih,
              lastAnswer_congr (answers_of_silent silent) (fun _ _ => by rw [since])]
      | none begins silent clears registered running taint nextGeneration =>
          have since : (past.next action possible).begunSinceClear file =
              past.begunSinceClear file := begunSinceClear_of_quiet begins clears file
          rw [taint, ih, lastAnswer_congr (answers_of_silent silent) (fun _ _ => by rw [since])]

/-- Refreshes are numbered one after the other. -/
theorem generations_begun (past : Chronicle cache) :
    (begun past.effects).map Refresh.generation = List.range cache.nextGeneration := by
  induction past with
  | beginning => rfl
  | @next cache past action possible ih =>
      rw [effects, begun_append, List.map_append, ih]
      cases refreshChange cache action with
      | start refresh begins fresh idle silent clears left =>
          rw [begins, left, List.range_succ, List.map_singleton, fresh]
      | finish refresh answer same begins clears registered running taint nextGeneration =>
          rw [begins, nextGeneration, List.map_nil, List.append_nil]
      | clear cleared clears begins silent registered running taint nextGeneration =>
          rw [begins, nextGeneration, List.map_nil, List.append_nil]
      | none begins silent clears registered running taint nextGeneration =>
          rw [begins, nextGeneration, List.map_nil, List.append_nil]

end Chronicle

/-! ## Numbers of 64 bits -/

/-- The number that a refresh gets from a counter of 64 bits that starts from one. -/
def refreshNumber (generation : Nat) : UInt64 :=
  .ofNat (generation + 1)

/-- Two of the first `2 ^ 64` refreshes have the same number only if they are the same. -/
theorem refreshNumber_inj {left right : Nat} (leftFits : left < UInt64.size)
    (rightFits : right < UInt64.size) :
    refreshNumber left = refreshNumber right ↔ left = right := by
  rw [UInt64.size] at leftFits rightFits
  rw [refreshNumber, refreshNumber, ← UInt64.toNat_inj, UInt64.toNat_ofNat', UInt64.toNat_ofNat']
  omega

/-- Takes over what a refresh fetched if the number registered for its file is its own. -/
def applyNumbered (refresh : Refresh) (issues : List TaintIssue) : Transition Cache Effect :=
  inspect fun cache =>
    if (cache.registered.get? refresh.file).map refreshNumber =
      some (refreshNumber refresh.generation)
    then
      (change (reloadTaint refresh.file issues)).andThen <|
        (remarkTaint refresh.file).andThen <| publish refresh.file
    else idle

/-- Until more than `2 ^ 64` refreshes have begun, it makes no difference whether the cache tells
them apart by their generations or by their numbers. -/
theorem Chronicle.applyNumbered_eq (past : Chronicle cache)
    (few : (begun past.effects).length ≤ UInt64.size) {refresh : Refresh}
    (live : refresh ∈ cache.running) (issues : List TaintIssue) :
    applyNumbered refresh issues cache = applyRefresh refresh issues cache := by
  have begins : (begun past.effects).length = cache.nextGeneration := by
    rw [← List.length_map Refresh.generation, past.generations_begun, List.length_range]
  have counts : (cache.registered.get? refresh.file).map refreshNumber =
      some (refreshNumber refresh.generation) ↔
        cache.registered.get? refresh.file = some refresh.generation := by
    cases found : cache.registered.get? refresh.file with
    | none => simp
    | some generation =>
        have older : generation < cache.nextGeneration :=
          past.registry.begun_lt _ _ (past.registry.begun_of_registered _ _ found)
        have younger := past.registry.running_lt refresh live
        rw [Option.map_some, Option.some.injEq, Option.some.injEq,
          refreshNumber_inj (by omega) (by omega)]
  rw [applyNumbered, applyRefresh, inspect_apply, inspect_apply]
  exact congrFun (if_congr counts rfl rfl) cache

/-! ## The protocol -/

/-- The files whose fetches are begun among effects, with their paths. -/
def fetches (effects : List Effect) : List (Url × String) :=
  effects.filterMap fun
    | .beginFetch refresh _ path => some (refresh.file, path)
    | _ => none

/-- The registered refreshes of a file that are under way. -/
def liveRefreshes (cache : Cache) (file : Url) : List Refresh :=
  cache.running.filter fun refresh =>
    refresh.file = file && cache.registered.get? file = some refresh.generation

/-- When a refresh begins, its file is being refreshed, and no other that was not before. -/
theorem isUpdating_scheduleOne (past : Chronicle cache) (server : Binding) {document : Document}
    (idle : cache.isUpdating document.uri = false) (file : Url) :
    (scheduleOne server document cache).1.isUpdating file =
      (decide (document.uri = file) || cache.isUpdating file) := by
  by_cases same : document.uri = file
  · subst same
    rw [isUpdating_scheduleOne_self, decide_eq_true rfl, Bool.true_or]
  · rw [scheduleOne_of_idle cache server idle, Bool.eq_iff_iff, Bool.or_eq_true, decide_eq_true_eq,
      isUpdating_iff, isUpdating_iff]
    simp only [same, false_or, Dictionary.get?_insert_of_ne _ _ (Ne.symm same)]
    constructor
    · rintro ⟨refresh, live, found⟩
      rcases List.mem_append.mp live with earlier | last
      · exact ⟨refresh, earlier, found⟩
      · -- The generation of the refresh that begins has been given to no file before.
        have older := past.registry.begun_lt file _
          (past.registry.begun_of_registered file refresh.generation found)
        rw [List.mem_singleton.mp last] at older
        exact (Nat.lt_irrefl _ older).elim
    · rintro ⟨refresh, live, found⟩
      exact ⟨refresh, List.mem_append_left _ live, found⟩

/-- The first document of a file that is not being refreshed begins a fetch, and no other does. -/
theorem fetches_schedule (past : Chronicle cache) (server : Binding) (documents : List Document)
    (file : Url) :
    (fetches (schedule server documents cache).2).filter (·.1 = file) =
      if cache.isUpdating file then []
      else ((documents.find? (·.uri = file)).map fun document =>
        (file, document.relativePath)).toList := by
  induction documents generalizing cache with
  | nil => split <;> rfl
  | cons document rest ih =>
      have later := ih (past.next (.schedule server document) trivial)
      have joined : fetches (schedule server (document :: rest) cache).2 =
          fetches (scheduleOne server document cache).2 ++
            fetches (schedule server rest (scheduleOne server document cache).1).2 :=
        List.filterMap_append
      rw [joined, List.filter_append]
      cases updating : cache.isUpdating document.uri with
      | true =>
          rw [act, scheduleOne_of_updating cache server updating] at later
          rw [scheduleOne_of_updating cache server updating, later]
          by_cases same : document.uri = file
          · rw [same] at updating
            simp [updating, fetches]
          · simp [same, fetches]
      | false =>
          have effects : fetches (scheduleOne server document cache).2 =
              [(document.uri, document.relativePath)] := by
            rw [scheduleOne_of_idle cache server updating]
            rfl
          rw [act, isUpdating_scheduleOne past server updating] at later
          rw [effects, later]
          by_cases same : document.uri = file
          · subst same
            simp [updating]
          · simp [same]

/-- A file has one registered refresh under way while it is being refreshed, and else none. -/
theorem length_liveRefreshes (past : Chronicle cache) (file : Url) :
    (cache.liveRefreshes file).length = if cache.isUpdating file then 1 else 0 := by
  have registry := past.registry
  by_cases updating : cache.isUpdating file = true
  · obtain ⟨refresh, live, found⟩ := isUpdating_iff.mp updating
    have begun := registry.begun_of_registered file refresh.generation found
    have same := registry.eq_of_generation file refresh live _ begun rfl
    have unique : ∀ other ∈ cache.running,
        (decide (other.file = file) &&
          decide (cache.registered.get? file = some other.generation)) =
            (other == refresh) := by
      intro other running
      rw [Bool.eq_iff_iff, Bool.and_eq_true, decide_eq_true_eq, decide_eq_true_eq, beq_iff_eq]
      refine ⟨fun ⟨_, registered⟩ => ?_, ?_⟩
      · rw [found] at registered
        rw [same]
        exact registry.eq_of_generation file other running _ begun (Option.some.inj registered).symm
      · rintro rfl
        exact ⟨by rw [same], found⟩
    rw [liveRefreshes, List.filter_congr unique, ← List.countP_eq_length_filter, if_pos updating]
    exact List.count_eq_one_of_mem registry.distinct.of_map live
  · rw [if_neg updating, List.length_eq_zero_iff, liveRefreshes, List.filter_eq_nil_iff]
    intro refresh live
    rw [Bool.and_eq_true, decide_eq_true_eq, decide_eq_true_eq]
    exact fun ⟨_, found⟩ => updating (isUpdating_iff.mpr ⟨refresh, live, found⟩)

/-- A registered refresh that has ended is not waited for any more. -/
theorem isUpdating_endRefresh (past : Chronicle cache) {refresh : Refresh}
    (live : refresh ∈ cache.running) (counts : refresh ∈ past.begunSinceClear refresh.file)
    (answer : Option (List TaintIssue)) :
    (endRefresh refresh answer cache).1.isUpdating refresh.file = false := by
  obtain ⟨taint, seen, left⟩ := endRefresh_fst cache refresh answer
  apply Bool.eq_false_iff.mpr
  rw [Ne, isUpdating_iff, left, (past.registered_iff live).mpr counts]
  rintro ⟨other, remains, same⟩
  obtain ⟨before, different⟩ := List.mem_filter.mp remains
  have equal := past.registry.eq_of_generation refresh.file other before refresh counts
    (Option.some.inj same).symm
  exact of_decide_eq_true different equal

/-- **The refresh protocol.** Scheduling begins one fetch for each file that is not being refreshed,
under the path of its first document, so no file ever has two registered refreshes under way. An
answer replaces the taint issues of its file, and the result is shown, if the file has not been
cleared since the refresh began; otherwise, or without an answer, the refresh only ends, and it
is not waited for any more. So the taint issues of a file are always those of the last answer that
counts. -/
theorem refresh_protocol (past : Chronicle cache) :
    (∀ server documents file,
      (fetches (schedule server documents cache).2).filter (·.1 = file) =
        if cache.isUpdating file then []
        else ((documents.find? (·.uri = file)).map fun document =>
          (file, document.relativePath)).toList) ∧
      (∀ file, (cache.liveRefreshes file).length = if cache.isUpdating file then 1 else 0) ∧
      (∀ refresh ∈ cache.running, refresh ∈ past.begunSinceClear refresh.file → ∀ issues,
        let ended := endRefresh refresh (some issues) cache
        ended.1.taint = cache.taint.reload refresh.file issues ∧
          publications ended.2 = [(refresh.file, ended.1.shown refresh.file)]) ∧
      (∀ refresh ∈ cache.running, ∀ answer,
        answer = none ∨ refresh ∉ past.begunSinceClear refresh.file →
          endRefresh refresh answer cache =
            ({ cache with running := cache.running.filter (· ≠ refresh) }, [])) ∧
      (∀ refresh ∈ cache.running, refresh ∈ past.begunSinceClear refresh.file → ∀ answer,
        (endRefresh refresh answer cache).1.isUpdating refresh.file = false) ∧
      ∀ file, cache.taint.get file = past.lastAnswer file := by
  refine ⟨fetches_schedule past, length_liveRefreshes past, ?_, ?_, ?_, past.taint_eq_lastAnswer⟩
  · intro refresh live counts issues
    have registered := (past.registered_iff live).mpr counts
    obtain ⟨seen, left⟩ := endRefresh_fst_of_registered cache issues registered
    refine ⟨?_, publications_endRefresh_of_registered cache issues registered⟩
    rw [left]
    rfl
  · intro refresh live answer void
    rcases void with rfl | cleared
    · rfl
    · apply endRefresh_of_unregistered
      rwa [Ne, past.registered_iff live]
  · exact fun refresh live counts answer => isUpdating_endRefresh past live counts answer

end IssueRelay.Cache
