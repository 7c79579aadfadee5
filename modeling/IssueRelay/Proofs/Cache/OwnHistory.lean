import IssueRelay.Proofs.Cache.Mirror
import IssueRelay.Proofs.Cache.Provenance

/-!
# The history of one file

What has happened to a file is the part of a chronicle that is about it, with its refreshes numbered
from zero as they have begun for the file. Identifiers and generations that the cache holds of the
file are those of its own reports and refreshes (`IssueRelay.Cache.Chronicle.names`), and what
happens to other files adds nothing to any of this.
-/

namespace IssueRelay.Cache

open Transition

/-- The fetches begun for a file among effects, with the servers that are asked. -/
def fetchesOf (file : Url) (effects : List Effect) : List (Binding × String) :=
  effects.filterMap fun
    | .beginFetch refresh server path => if refresh.file = file then some (server, path) else none
    | _ => none

/-- The fetches begun for a file are found part by part. -/
@[simp] theorem fetchesOf_append (file : Url) (left right : List Effect) :
    fetchesOf file (left ++ right) = fetchesOf file left ++ fetchesOf file right :=
  List.filterMap_append

/-- Effects that begin refreshes of other files only begin no fetch for the file. -/
theorem fetchesOf_of_begun {file : Url} {effects : List Effect}
    (others : ∀ refresh ∈ begun effects, refresh.file ≠ file) : fetchesOf file effects = [] := by
  apply List.filterMap_eq_nil_iff.mpr
  intro effect member
  cases effect with
  | beginFetch refresh server path =>
      exact if_neg (others refresh (List.mem_filterMap.mpr ⟨_, member, rfl⟩))
  | _ => rfl

/-- Only scheduling a refresh of the file itself begins a fetch for it, and only while no refresh of
it goes on. -/
theorem fetchesOf_act (file : Url) (cache : Cache) (action : Action) :
    fetchesOf file (act action cache).2 =
      match action with
      | .schedule server document =>
        if document.uri = file then
          if cache.isUpdating file then [] else [(server, document.relativePath)]
        else []
      | _ => [] := by
  have begins := begun_act cache action
  cases action with
  | schedule server document =>
      rw [act]
      cases updating : cache.isUpdating document.uri with
      | true =>
          rw [scheduleOne_of_updating cache server updating]
          by_cases same : document.uri = file
          · subst same
            simp [fetchesOf, updating]
          · simp [fetchesOf, same]
      | false =>
          rw [scheduleOne_of_idle cache server updating]
          by_cases same : document.uri = file
          · subst same
            simp [fetchesOf, updating]
          · simp [fetchesOf, same]
  | _ =>
      apply fetchesOf_of_begun
      rw [begins]
      exact List.forall_mem_nil _

namespace Action

/-- Whether an action reports an issue. -/
def isReport : Action → Bool
  | .report _ _ | .reportTracked _ _ _ => true
  | _ => false

/-- An action has a report exactly if it is one that reports. -/
theorem isSome_reported? (cache : Cache) (action : Action) :
    (action.reported? cache).isSome = action.isReport := by
  cases action with
  | report document issue | reportTracked document issue known => rfl
  | _ => rfl

variable (g : Nat → Nat) (action : Action)

/-- Numbering the refreshes anew does not make a report or undo one. -/
@[simp] theorem isReport_renumber : (action.renumber g).isReport = action.isReport := by
  cases action <;> rfl

/-- An action is about the same file when its refreshes are numbered anew. -/
@[simp] theorem subject?_renumber : (action.renumber g).subject? = action.subject? := by
  cases action <;> rfl

/-- The generation of the refresh that ends or that has been waited for. -/
def generation? : Action → Option Nat
  | .resume pending => some pending.generation
  | .finish refresh _ => some refresh.generation
  | _ => none

/-- Numbering refreshes twice is numbering them by the composition. -/
theorem renumber_renumber (h : Nat → Nat) :
    (action.renumber g).renumber h = action.renumber (h ∘ g) := by
  cases action <;> rfl

variable {g action} in
/-- Only the generation that an action names counts when it is numbered anew. -/
theorem renumber_congr {h : Nat → Nat}
    (same : ∀ generation ∈ action.generation?, g generation = h generation) :
    action.renumber g = action.renumber h := by
  cases action with
  | resume pending =>
      have numbered := same pending.generation rfl
      rw [renumber, renumber, WaitingCommit.renumber, WaitingCommit.renumber, numbered]
  | finish refresh answer =>
      have numbered := same refresh.generation rfl
      rw [renumber, renumber, Refresh.renumber, Refresh.renumber, numbered]
  | _ => rfl

/-- Numbered by the identity, an action is what it was. -/
@[simp] theorem renumber_id : action.renumber id = action := by
  cases action <;> rfl

end Action

namespace Chronicle

variable {cache : Cache}

/-- Whether a chronicle is the beginning of another. -/
inductive Begins (past : Chronicle cache) : {after : Cache} → Chronicle after → Prop
  | refl : past.Begins past
  | next {after : Cache} {later : Chronicle after} (begins : past.Begins later) (action : Action)
      (possible : action.Possible after) : past.Begins (later.next action possible)

/-- The identifiers of the issues reported on a file. -/
def idsOf (file : Url) (past : Chronicle cache) : List IssueId :=
  (past.reports.filter (·.file = file)).map Report.id

/-- The generations of the refreshes of a file. -/
def generationsOf (file : Url) (past : Chronicle cache) : List Nat :=
  ((begun past.effects).filter (·.file = file)).map Refresh.generation

/-- The lists of diagnostics published for a file. -/
def publishedOf (file : Url) (past : Chronicle cache) : List (List Diagnostic) :=
  ((publications past.effects).filter (·.1 = file)).map Prod.snd

/-- The calls about a file that have returned, by their tickets. -/
def returnedOf (file : Url) : {cache : Cache} → Chronicle cache → List Nat
  | _, .beginning => []
  | _, @next cache past action _ =>
    past.returnedOf file ++
      if action.subject? = some file then returned (act action cache).2 else []

/-- What has happened to a file, whichever generations its refreshes were given. -/
def own (file : Url) : {cache : Cache} → Chronicle cache → List Action
  | _, .beginning => []
  | _, .next past action _ =>
    past.own file ++
      if action.subject? = some file then [action.renumber (past.generationsOf file).idxOf] else []

variable {file : Url} (past : Chronicle cache)

/-! ## Refreshes that have begun -/

/-- The generations of a file's refreshes are some of those given out, in the order in which they
were given out. -/
theorem generationsOf_sublist :
    (past.generationsOf file).Sublist (List.range cache.nextGeneration) := by
  rw [← past.generations_begun]
  exact List.filter_sublist.map _

/-- No two refreshes of a file have the same generation. -/
theorem nodup_generationsOf : (past.generationsOf file).Nodup :=
  List.nodup_range.sublist past.generationsOf_sublist

/-- The next generation has been given to no refresh of the file. -/
theorem nextGeneration_notMem_generationsOf : cache.nextGeneration ∉ past.generationsOf file :=
  fun member => List.not_mem_range_self (past.generationsOf_sublist.subset member)

/-- A refresh that has begun for a file has one of the generations of the file. -/
theorem mem_generationsOf {refresh : Refresh} (member : refresh ∈ begun past.effects)
    (same : refresh.file = file) : refresh.generation ∈ past.generationsOf file :=
  List.mem_map_of_mem (List.mem_filter.mpr ⟨member, decide_eq_true same⟩)

/-- A fetch that goes on belongs to a refresh that has begun. -/
theorem begun_of_running : ∀ refresh ∈ cache.running, refresh ∈ begun past.effects := by
  induction past with
  | beginning => exact fun _ member => nomatch member
  | @next cache past action possible ih =>
      intro refresh live
      rw [effects, begun_append]
      cases refreshChange cache action with
      | start begins' begins fresh idle silent clears left =>
          rw [left] at live
          rw [begins]
          rcases List.mem_append.mp live with earlier | last
          · exact List.mem_append_left _ (ih refresh earlier)
          · exact List.mem_append_right _ last
      | finish ended answer same begins clears registered running taint nextGeneration =>
          rw [running] at live
          exact List.mem_append_left _ (ih refresh (List.mem_of_mem_filter live))
      | clear cleared clears begins silent registered running taint nextGeneration =>
          rw [running] at live
          exact List.mem_append_left _ (ih refresh live)
      | none begins silent clears registered running taint nextGeneration =>
          rw [running] at live
          exact List.mem_append_left _ (ih refresh live)

/-- A refresh begun since the file was last cleared is one that has begun. -/
theorem begun_of_begunSinceClear :
    ∀ refresh ∈ past.begunSinceClear file, refresh ∈ begun past.effects := by
  induction past with
  | beginning => exact fun _ member => nomatch member
  | @next cache past action possible ih =>
      intro refresh member
      rw [effects, begun_append]
      rcases List.mem_append.mp member with earlier | last
      · split at earlier
        · cases earlier
        · exact List.mem_append_left _ (ih refresh earlier)
      · exact List.mem_append_right _ (List.mem_of_mem_filter last)

/-- A commit waits only for a refresh that has begun. -/
theorem begun_of_waiting : ∀ pending ∈ cache.waiting,
    (⟨pending.generation, pending.file⟩ : Refresh) ∈ begun past.effects := by
  induction past with
  | beginning => exact fun _ member => nomatch member
  | @next cache past action possible ih =>
      intro pending member
      rw [effects, begun_append]
      apply List.mem_append_left
      rcases mem_waiting_act member with earlier | ⟨_, unfinished⟩
      · exact ih pending earlier
      · exact past.begun_of_running _ (past.live_of_unfinished unfinished).1

/-- What the cache holds of a file goes by its own reports and refreshes. -/
theorem names (past : Chronicle cache) (file : Url) :
    Names file (past.idsOf file) (past.generationsOf file) cache := by
  have reported : ∀ {issues : IssueSet} {reports : List Report}, issues.Holds reports →
      (∀ report ∈ reports, report ∈ past.reports ∧ report.file = file) →
      ∀ name ∈ issues.keys, name ∈ past.idsOf file := by
    intro issues reports holds among name member
    have found : (latest? name reports).isSome := by
      rw [← holds.found, IssueSet.get?_asReported, Option.isSome_map]
      exact Dictionary.mem_keys_iff.mp member
    obtain ⟨report, listed, rfl⟩ := List.mem_map.mp (isSome_latest?.mp found)
    obtain ⟨made, own⟩ := among report listed
    exact List.mem_map_of_mem (List.mem_filter.mpr ⟨made, decide_eq_true own⟩)
  have refines := past.refines file
  obtain ⟨uncommitted, holds⟩ := refines.uncommittedIssues_eq
  refine ⟨?_, ?_, ?_, ?_, ?_⟩
  · rw [uncommitted]
    exact reported holds fun report listed =>
      ⟨(past.uncommitted_sublist file).subset listed, past.file_of_uncommitted report listed⟩
  · rw [refines.committed]
    exact reported refines.holds fun report listed =>
      ⟨(past.committedReports_sublist file).subset listed,
        past.file_of_committedReports report listed⟩
  · intro generation found
    have begun := past.registry.begun_of_registered file generation found
    exact past.mem_generationsOf (past.begun_of_begunSinceClear _ begun) rfl
  · intro refresh live same
    exact past.mem_generationsOf (past.begun_of_running refresh live) same
  · intro pending waits same
    exact past.mem_generationsOf (past.begun_of_waiting pending waits) same

/-! ## Reports on a file -/

variable {action : Action} {possible : action.Possible cache}

/-- An action about the file adds an identifier to those of the file exactly if it reports an issue,
and then the next one. -/
theorem idsOf_next_of_subject (subject : action.subject? = some file) :
    (past.next action possible).idsOf file =
      past.idsOf file ++ if action.isReport then [cache.nextId] else [] := by
  rw [idsOf, reports, List.filter_append, List.map_append, idsOf, List.append_cancel_left_eq,
    ← Action.isSome_reported? cache]
  rcases nextId_act cache action with ⟨report, reported, numbered, _⟩ | ⟨silent, _⟩
  · have own : report.file = file :=
      Option.some.inj ((Action.subject?_of_reported reported).symm.trans subject)
    simp [reported, own, numbered]
  · simp [silent]

/-- The reports of a beginning are the first of the reports. -/
theorem Begins.reports {after : Cache} {past : Chronicle cache} {later : Chronicle after}
    (begins : past.Begins later) : past.reports <+: later.reports := by
  induction begins with
  | refl => exact List.prefix_rfl
  | next begins action possible ih => exact ih.trans (List.prefix_append _ _)

/-- The identifiers that a beginning gives to the file's issues are the first of them. -/
theorem Begins.idsOf {after : Cache} {past : Chronicle cache} {later : Chronicle after}
    (begins : past.Begins later) : past.idsOf file <+: later.idsOf file :=
  (begins.reports.filter _).map _

/-- An identifier given to an issue of the file stays among them. -/
theorem idsOf_subset_next : past.idsOf file ⊆ (past.next action possible).idsOf file :=
  (Begins.refl.next action possible).idsOf.subset

/-- As long as identifiers do not wrap around, those of a file ascend in the order of its reports.
-/
theorem ascending_idsOf (few : past.reports.length < UInt64.size) :
    Ascending (past.idsOf file) :=
  (past.ascending_ids few).sublist (List.filter_sublist.map _)

/-! ## What happens to other files -/

section Elsewhere

variable (elsewhere : action.subject? ≠ some file)

include elsewhere

/-- An action about another file adds nothing to what has happened to the file. -/
theorem own_next_of_elsewhere : (past.next action possible).own file = past.own file := by
  rw [own, if_neg elsewhere, List.append_nil]

/-- An action about another file lets no call about the file return. -/
theorem returnedOf_next_of_elsewhere :
    (past.next action possible).returnedOf file = past.returnedOf file := by
  rw [returnedOf, if_neg elsewhere, List.append_nil]

/-- An action about another file adds no identifier to those of the file. -/
theorem idsOf_next_of_elsewhere : (past.next action possible).idsOf file = past.idsOf file := by
  have none : (action.reported? cache).toList.filter (·.file = file) = [] := by
    apply List.filter_eq_nil_iff.mpr
    intro report member own
    apply elsewhere
    rw [Action.subject?_of_reported (Option.mem_toList.mp member), of_decide_eq_true own]
  rw [idsOf, reports, List.filter_append, none, List.append_nil]
  rfl

/-- An action about another file adds no generation to those of the file. -/
theorem generationsOf_next_of_elsewhere :
    (past.next action possible).generationsOf file = past.generationsOf file := by
  have none : (begun (act action cache).2).filter (·.file = file) = [] := by
    apply List.filter_eq_nil_iff.mpr
    intro refresh member own
    apply elsewhere
    rw [Action.subject?_of_begun member, of_decide_eq_true own]
  rw [generationsOf, effects, begun_append, List.filter_append, none, List.append_nil]
  rfl

/-- An action about another file publishes nothing for the file. -/
theorem publishedOf_next_of_elsewhere :
    (past.next action possible).publishedOf file = past.publishedOf file := by
  have none : (publications (act action cache).2).filter (·.1 = file) = [] := by
    apply List.filter_eq_nil_iff.mpr
    intro publication published own
    exact past.not_published_of_elsewhere possible elsewhere publication published
      (of_decide_eq_true own)
  rw [publishedOf, effects, publications_append, List.filter_append, none, List.append_nil]
  rfl

/-- An action about another file begins no fetch for the file. -/
theorem fetchesOf_next_of_elsewhere :
    fetchesOf file (past.next action possible).effects = fetchesOf file past.effects := by
  have none : fetchesOf file (act action cache).2 = [] :=
    fetchesOf_of_begun fun refresh begins own =>
      elsewhere (own ▸ Action.subject?_of_begun begins)
  rw [effects, fetchesOf_append, none, List.append_nil]

end Elsewhere

/-! ## What happens to the file -/

section Subject

variable (subject : action.subject? = some file)

include subject

/-- An action about the file is the next of those that have happened to it, numbered by the file's
own refreshes. -/
theorem own_next_of_subject :
    (past.next action possible).own file =
      past.own file ++ [action.renumber (past.generationsOf file).idxOf] := by
  rw [own, if_pos subject]

/-- The tickets that an action about the file returns are added to those of the file. -/
theorem returnedOf_next_of_subject :
    (past.next action possible).returnedOf file =
      past.returnedOf file ++ returned (act action cache).2 := by
  rw [returnedOf, if_pos subject]

/-- An action about the file that shows it adds the visible set to the published lists. -/
theorem publishedOf_next_of_subject :
    (past.next action possible).publishedOf file =
      past.publishedOf file ++
        (past.shownBy? action).toList.map fun _ => (act action cache).1.shown file := by
  rw [publishedOf, effects, publications_append, List.filter_append, List.map_append,
    past.publications_act action possible]
  cases shows : past.shownBy? action with
  | none => rfl
  | some shown =>
      have own : shown = file :=
        Option.some.inj ((past.subject?_of_shownBy shows).symm.trans subject)
      subst own
      simp [publishedOf]

/-- The refreshes that an action about the file begins are refreshes of the file. -/
theorem generationsOf_next_of_subject :
    (past.next action possible).generationsOf file =
      past.generationsOf file ++ (begun (act action cache).2).map Refresh.generation := by
  have all : (begun (act action cache).2).filter (·.file = file) = begun (act action cache).2 := by
    apply List.filter_eq_self.mpr
    intro refresh member
    exact decide_eq_true (Option.some.inj ((Action.subject?_of_begun member).symm.trans subject))
  rw [generationsOf, effects, begun_append, List.filter_append, all, List.map_append]
  rfl

end Subject

/-- The reports on a file can be counted in what has happened to it. -/
theorem length_idsOf : (past.idsOf file).length = (past.own file).countP Action.isReport := by
  induction past with
  | beginning => rfl
  | @next cache past action possible ih =>
      by_cases subject : action.subject? = some file
      · rw [past.idsOf_next_of_subject subject, past.own_next_of_subject subject,
          List.length_append, List.countP_append, ih, List.countP_singleton,
          Action.isReport_renumber]
        split <;> rfl
      · rw [past.idsOf_next_of_elsewhere subject, past.own_next_of_elsewhere subject, ih]

end Chronicle
end IssueRelay.Cache
