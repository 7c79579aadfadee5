import IssueRelay.Proofs.Cache.Action
import IssueRelay.Proofs.Issue.Order

/-!
# Chronicles of the issue cache

A chronicle is all that has happened to a cache since it was empty, one action after the other. A
refresh ends at any time after it began, and a commit that has waited for it is made at any time
after that, whatever happens in between. Every run of operations has a chronicle with the same
effects (`IssueRelay.Cache.exists_chronicle_run`), so what holds of all chronicles holds of all
runs.
-/

namespace IssueRelay.Cache

/-- What has happened to a cache since it was empty. -/
inductive Chronicle : Cache → Type
  | beginning : Chronicle .empty
  | next {cache : Cache} (past : Chronicle cache) (action : Action)
      (possible : action.Possible cache) : Chronicle (act action cache).1

namespace Chronicle

variable {cache : Cache}

/-- Everything that has been brought about, in order. -/
def effects : {cache : Cache} → Chronicle cache → List Effect
  | _, .beginning => []
  | _, @next cache past action _ => past.effects ++ (act action cache).2

/-- The reports on all files, in order. -/
def reports : {cache : Cache} → Chronicle cache → List Report
  | _, .beginning => []
  | _, @next cache past action _ => past.reports ++ (action.reported? cache).toList

end Chronicle

/-- Each report takes the next identifier, and nothing else takes one. -/
theorem nextId_act (cache : Cache) (action : Action) :
    (∃ report, action.reported? cache = some report ∧ report.id = cache.nextId ∧
        (act action cache).1.nextId = cache.nextId.next) ∨
      (action.reported? cache = none ∧
        (act action cache).1.nextId = cache.nextId) := by
  cases action with
  | start | fail | seedSecretSeen => exact .inr ⟨rfl, rfl⟩
  | report document issue =>
      obtain ⟨seen, left⟩ := report_fst cache document issue
      exact .inl ⟨_, rfl, rfl, by rw [act, left]; rfl⟩
  | reportTracked document issue known =>
      obtain ⟨seen, left⟩ := reportTracked_fst cache document issue known
      exact .inl ⟨_, rfl, rfl, by rw [act, left]; rfl⟩
  | succeed file ticket =>
      refine .inr ⟨rfl, ?_⟩
      cases unfinished : cache.unfinished? file with
      | some generation => rw [act, succeed_of_unfinished cache ticket unfinished]
      | none =>
          obtain ⟨seen, left⟩ := commit_fst cache file
          rw [act, succeed_of_finished cache ticket unfinished, left]
  | resume pending =>
      obtain ⟨seen, left⟩ := resume_fst cache pending
      exact .inr ⟨rfl, by rw [act, left]⟩
  | clear file => exact .inr ⟨rfl, by rw [act, clear_fst]⟩
  | schedule server document =>
      refine .inr ⟨rfl, ?_⟩
      cases updating : cache.isUpdating document.uri with
      | true => rw [act, scheduleOne_of_updating cache server updating]
      | false => rw [act, scheduleOne_of_idle cache server updating]
  | finish refresh answer =>
      obtain ⟨taint, seen, left⟩ := endRefresh_fst cache refresh answer
      exact .inr ⟨rfl, by rw [act, left]⟩

namespace Chronicle

variable {cache : Cache}

/-- Reports are numbered one after the other. -/
theorem nextId_eq (past : Chronicle cache) :
    cache.nextId = ⟨UInt64.ofNat (past.reports.length + 1)⟩ := by
  induction past with
  | beginning => rfl
  | @next cache past action possible ih =>
      rcases nextId_act cache action with ⟨report, reported, _, next⟩ | ⟨silent, same⟩
      · simp only [reports, reported, Option.toList_some, List.length_append,
          List.length_singleton, next, IssueId.next, ih]
        rw [UInt64.ofNat_add (past.reports.length + 1) 1]
        rfl
      · simp [reports, silent, same, ih]

/-- Reporters have been told the identifiers of their reports, and no others. -/
theorem toldIds_effects (past : Chronicle cache) :
    toldIds past.effects = past.reports.map Report.id := by
  induction past with
  | beginning => rfl
  | @next cache past action possible ih =>
      rw [effects, reports, toldIds_append, List.map_append, ih, toldIds_act]
      cases action.reported? cache <;> rfl

/-- The report in each place has the number of its place. -/
theorem ids_reports (past : Chronicle cache) :
    past.reports.map Report.id =
      (List.range past.reports.length).map fun place => ⟨UInt64.ofNat (place + 1)⟩ := by
  induction past with
  | beginning => rfl
  | @next cache past action possible ih =>
      rcases nextId_act cache action with ⟨report, reported, numbered, _⟩ | ⟨silent, _⟩
      · simp only [reports, reported, Option.toList_some, List.map_append, ih,
          List.map_singleton, List.length_append, List.length_singleton, List.range_succ,
          numbered, past.nextId_eq]
      · simpa [reports, silent] using ih

/-- As long as there are fewer reports than identifiers, each has a greater one than any before. -/
theorem ascending_ids (past : Chronicle cache) (few : past.reports.length < UInt64.size) :
    Ascending (past.reports.map Report.id) := by
  rw [past.ids_reports, Ascending, List.pairwise_map]
  refine List.pairwise_lt_range.imp_of_mem fun {left right} inLeft inRight earlier => ?_
  rw [List.mem_range] at inLeft inRight
  rw [UInt64.size] at few
  rw [UInt64.lt_iff_toNat_lt, UInt64.toNat_ofNat', UInt64.toNat_ofNat',
    Nat.mod_eq_of_lt (by omega), Nat.mod_eq_of_lt (by omega)]
  omega

/-- As long as there are fewer reports than identifiers, no two have the same. -/
theorem nodup_ids (past : Chronicle cache) (few : past.reports.length < UInt64.size) :
    (past.reports.map Report.id).Nodup :=
  (past.ascending_ids few).nodup

end Chronicle
end IssueRelay.Cache
