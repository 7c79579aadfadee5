import IssueRelay.Proofs.Cache.Run
import IssueRelay.Proofs.Cache.SameHistory

/-!
# Files do not interfere

What a run tells of a file depends on the operations on this file alone
(`IssueRelay.Cache.files_do_not_interfere`). An operation that is about several files counts for
each of them by its part, and the end of a refresh by the place of the refresh among those of its
file. When commits that have waited are made is not chosen by a run: the history of the file decides
it.
-/

namespace IssueRelay.Cache

open Transition

/-- The file that an operation is about; the refreshes that it schedules or completes aside. -/
def Operation.file? : Operation → Option Url
  | .start file => some file
  | .report document _ => some document.uri
  | .reportTracked document _ _ => some document.uri
  | .fail file => some file
  | .succeed file _ => some file
  | .clear file => some file
  | _ => none

namespace Chronicle

variable {cache : Cache}

/-- The part of an operation that is about a file. -/
def part? (file : Url) (past : Chronicle cache) : Operation → Option Operation
  | .schedule server documents =>
    let own := documents.filter (·.uri = file)
    if own.isEmpty then none else some (.schedule server own)
  | .complete generation answer =>
    if ⟨generation, file⟩ ∈ cache.running then
      some (.complete ((past.generationsOf file).idxOf generation) answer)
    else none
  | operation => if operation.file? = some file then some operation else none

/-- The parts of operations that are about a file. -/
def partsOf (file : Url) : {cache : Cache} → Chronicle cache → List Operation → List Operation
  | _, _, [] => []
  | _, past, operation :: rest =>
    (past.part? file operation).toList ++ (past.after operation).partsOf file rest

/-- The commits of a file that wait, by the places of the refreshes that they wait for. -/
def queueOf (file : Url) (past : Chronicle cache) : List WaitingCommit :=
  (cache.waiting.filter (·.file = file)).map
    (WaitingCommit.renumber (past.generationsOf file).idxOf)

end Chronicle

/-- The operations of a run that are about a file, with the places of its refreshes. -/
def operationsOf (file : Url) (operations : List Operation) : List Operation :=
  Chronicle.beginning.partsOf file operations

/-- The actions of which an operation on a file is made, given the commits of the file that wait. -/
def Operation.actionsWith (file : Url) (queue : List WaitingCommit) : Operation → List Action
  | .complete place answer =>
    .finish ⟨place, file⟩ answer :: (queue.filter (·.generation = place)).map .resume
  | operation => operation.actions .empty

namespace Chronicle

variable {cache : Cache} {file : Url} (past : Chronicle cache)

/-! ## What an operation does to a file -/

/-- The refreshes of a file are listed as they begin, so what was listed stays at the beginning. -/
theorem generationsOf_next {action : Action} {possible : action.Possible cache} :
    past.generationsOf file <+: (past.next action possible).generationsOf file := by
  rw [generationsOf, generationsOf, effects, begun_append, List.filter_append, List.map_append]
  exact List.prefix_append _ _

/-- Of several actions in turn, a file has its own part added to its history. -/
theorem own_follow (actions : List Action) (possible : InTurn actions cache)
    (known : ∀ action ∈ actions, action.subject? = some file →
      ∀ generation ∈ action.generation?, generation ∈ past.generationsOf file) :
    (past.follow actions possible).own file = past.own file ++
      (actions.filter (·.subject? = some file)).map
        (Action.renumber (past.generationsOf file).idxOf) := by
  induction actions generalizing cache with
  | nil => exact (List.append_nil _).symm
  | cons action rest ih =>
      have grows : past.generationsOf file <+: (past.next action possible.1).generationsOf file :=
        past.generationsOf_next
      have later : ∀ action ∈ rest, action.subject? = some file →
          ∀ generation ∈ action.generation?, generation ∈ past.generationsOf file :=
        fun action member => known action (List.mem_cons_of_mem _ member)
      have places : ∀ generation ∈ past.generationsOf file,
          ((past.next action possible.1).generationsOf file).idxOf generation =
            (past.generationsOf file).idxOf generation := by
        obtain ⟨more, grown⟩ := grows
        intro generation member
        rw [← grown, List.idxOf_append_of_mem member]
      have numbered : (rest.filter (·.subject? = some file)).map
            (Action.renumber ((past.next action possible.1).generationsOf file).idxOf) =
          (rest.filter (·.subject? = some file)).map
            (Action.renumber (past.generationsOf file).idxOf) := by
        refine List.map_congr_left fun action member =>
          Action.renumber_congr fun generation speaks => places generation ?_
        obtain ⟨among, subject⟩ := List.mem_filter.mp member
        exact later action among (of_decide_eq_true subject) generation speaks
      have known : ∀ other ∈ rest, other.subject? = some file →
          ∀ generation ∈ other.generation?,
            generation ∈ (past.next action possible.1).generationsOf file :=
        fun other member subject generation speaks =>
          grows.subset (later other member subject generation speaks)
      refine (ih (past.next action possible.1) possible.2 known).trans ?_
      rw [numbered, own, List.append_assoc, List.filter_cons]
      by_cases subject : action.subject? = some file
      · simp [subject]
      · simp [subject]

/-- Every action of an operation on a file speaks of a refresh of the file, if of any. -/
theorem mem_generationsOf_of_mem_actions {operation : Operation} {action : Action}
    (member : action ∈ operation.actions cache) (subject : action.subject? = some file) :
    ∀ generation ∈ action.generation?, generation ∈ past.generationsOf file := by
  intro generation speaks
  have names := past.names file
  cases operation with
  | schedule server documents =>
      obtain ⟨document, _, rfl⟩ := List.mem_map.mp member
      cases speaks
  | complete completed answer =>
      rw [Operation.actions] at member
      cases found : cache.running.find? (·.generation = completed) with
      | none =>
          rw [found] at member
          cases member
      | some refresh =>
          rw [found] at member
          rcases List.mem_cons.mp member with rfl | resumes
          · cases speaks
            exact names.running refresh (mem_running_of_find? found).1 (Option.some.inj subject)
          · obtain ⟨pending, waits, rfl⟩ := List.mem_map.mp resumes
            cases speaks
            exact names.waiting pending (List.mem_of_mem_filter waits) (Option.some.inj subject)
  | _ =>
      obtain rfl := List.mem_singleton.mp member
      cases speaks

/-- A call waits for a refresh of its own file. -/
theorem file_of_waitingFor (past : Chronicle cache) {refresh : Refresh}
    (live : refresh ∈ cache.running) :
    ∀ pending ∈ cache.waitingFor refresh.generation, pending.file = refresh.file := by
  intro pending member
  obtain ⟨waits, same⟩ := List.mem_filter.mp member
  exact ((past.waits_for_own_refresh pending waits).2 refresh live
    (of_decide_eq_true same).symm).symm

/-- The commits of a file that wait for one of its refreshes are told by its place. -/
theorem filter_queueOf {refresh : Refresh} (live : refresh ∈ cache.running) :
    (past.queueOf refresh.file).filter
        (·.generation = (past.generationsOf refresh.file).idxOf refresh.generation) =
      (cache.waitingFor refresh.generation).map
        (WaitingCommit.renumber (past.generationsOf refresh.file).idxOf) := by
  have names := past.names refresh.file
  rw [queueOf, List.filter_map, List.filter_filter, waitingFor]
  congr 1
  apply List.filter_congr
  intro pending waits
  rw [Bool.eq_iff_iff, Bool.and_eq_true, Function.comp_apply, decide_eq_true_iff,
    decide_eq_true_iff, decide_eq_true_iff]
  constructor
  · rintro ⟨place, own⟩
    exact (List.idxOf_inj (names.waiting pending waits own)).mp place
  · intro same
    have awaited : pending ∈ cache.waitingFor refresh.generation :=
      List.mem_filter.mpr ⟨waits, decide_eq_true same⟩
    exact ⟨congrArg (past.generationsOf refresh.file).idxOf same,
      past.file_of_waitingFor live pending awaited⟩

/-- Of a scheduling, a file is concerned with its own documents. -/
theorem filter_actions_schedule (server : Binding) (documents : List Document) :
    ((documents.map (Action.schedule server)).filter (·.subject? = some file)) =
      (documents.filter (·.uri = file)).map (.schedule server) := by
  rw [List.filter_map]
  congr 1
  apply List.filter_congr
  intro document _
  simp [Action.subject?]

/-- The end of a refresh is about its file alone. -/
theorem filter_actions_finish (past : Chronicle cache) {refresh : Refresh}
    (live : refresh ∈ cache.running) (answer : Option (List TaintIssue)) :
    (Action.finish refresh answer :: (cache.waitingFor refresh.generation).map .resume).filter
        (·.subject? = some file) =
      if refresh.file = file then
        .finish refresh answer :: (cache.waitingFor refresh.generation).map .resume
      else [] := by
  have subjects : ∀ action ∈ Action.finish refresh answer ::
      (cache.waitingFor refresh.generation).map .resume, action.subject? = some refresh.file := by
    intro action member
    rcases List.mem_cons.mp member with rfl | resumes
    · rfl
    · obtain ⟨pending, waits, rfl⟩ := List.mem_map.mp resumes
      exact congrArg some (past.file_of_waitingFor live pending waits)
  split
  · rename_i same
    rw [List.filter_eq_self]
    intro action member
    rw [subjects action member, same]
    exact decide_eq_true rfl
  · rename_i different
    rw [List.filter_eq_nil_iff]
    intro action member
    rw [subjects action member, decide_eq_true_iff, Option.some.injEq]
    exact different

/-- An operation does to a file what its part does. -/
theorem actions_eq_actionsWith (operation : Operation) :
    ((operation.actions cache).filter (·.subject? = some file)).map
        (Action.renumber (past.generationsOf file).idxOf) =
      (past.part? file operation).toList.flatMap
        (Operation.actionsWith file (past.queueOf file)) := by
  cases operation with
  | schedule server documents =>
      rw [Operation.actions, filter_actions_schedule, List.map_map, part?]
      cases documents.filter (·.uri = file) with
      | nil => rfl
      | cons document rest => simp [Operation.actionsWith, Operation.actions, Action.renumber]
  | complete generation answer =>
      rw [Operation.actions, part?]
      cases found : cache.running.find? (·.generation = generation) with
      | none =>
          have absent : (⟨generation, file⟩ : Refresh) ∉ cache.running := fun live =>
            absurd (List.find?_eq_none.mp found _ live) (by simp)
          rw [if_neg absent]
          rfl
      | some refresh =>
          obtain ⟨live, rfl⟩ := mem_running_of_find? found
          have only : (⟨refresh.generation, file⟩ : Refresh) ∈ cache.running ↔
              refresh.file = file := by
            refine ⟨fun other => ?_, fun same => same ▸ live⟩
            exact congrArg Refresh.file
              (List.inj_on_of_nodup_map past.registry.distinct live other rfl)
          dsimp only
          rw [past.filter_actions_finish live]
          by_cases own : refresh.file = file
          · subst own
            rw [if_pos rfl, if_pos live, Option.toList_some, List.flatMap_singleton,
              Operation.actionsWith, past.filter_queueOf live, List.map_cons, List.map_map,
              List.map_map]
            rfl
          · rw [if_neg own, if_neg (mt only.mp own)]
            rfl
  | seedSecretSeen seen => rfl
  | start started | fail started | succeed started ticket | clear started =>
      by_cases own : started = file <;>
        simp [Operation.actions, part?, Operation.actionsWith, Operation.file?, Action.subject?,
          Action.file?, Action.renumber, own]
  | report document issue | reportTracked document issue known =>
      by_cases own : document.uri = file <;>
        simp [Operation.actions, part?, Operation.actionsWith, Operation.file?, Action.subject?,
          Action.file?, Action.renumber, own]

/-- What an operation adds to the history of a file is told by its part for this file alone. -/
theorem own_after (operation : Operation) :
    (past.after operation).own file = past.own file ++
      (past.part? file operation).toList.flatMap
        (Operation.actionsWith file (past.queueOf file)) := by
  rw [past.apply_after (own file) operation,
    past.own_follow _ _ fun action member subject =>
      past.mem_generationsOf_of_mem_actions member subject, past.actions_eq_actionsWith]

/-! ## Beginnings of runs -/

/-- A beginning of a beginning is a beginning. -/
theorem Begins.trans {middle after : Cache} {past : Chronicle cache} {later : Chronicle middle}
    {last : Chronicle after} (begins : past.Begins later) (continues : later.Begins last) :
    past.Begins last := by
  induction continues with
  | refl => exact begins
  | next _ action possible ih => exact ih.next action possible

/-- Following actions continues a chronicle. -/
theorem begins_follow (actions : List Action) (possible : InTurn actions cache) :
    past.Begins (past.follow actions possible) := by
  induction actions generalizing cache with
  | nil => exact .refl
  | cons action rest ih =>
      exact (Begins.refl.next action possible.1).trans (ih (past.next action possible.1) possible.2)

/-- An operation continues a chronicle. -/
theorem begins_after (operation : Operation) : past.Begins (past.after operation) := by
  rw [past.apply_after (fun later => past.Begins later) operation]
  exact past.begins_follow _ _

/-- Operations continue a chronicle. -/
theorem begins_afterAll (operations : List Operation) : past.Begins (past.afterAll operations) := by
  induction operations generalizing cache with
  | nil => exact .refl
  | cons operation rest ih => exact (past.begins_after operation).trans (ih (past.after operation))

/-- The operations that come first lead to a beginning of where all of them lead. -/
theorem begins_afterAll_append (operations later : List Operation) :
    (past.afterAll operations).Begins (past.afterAll (operations ++ later)) := by
  induction operations generalizing cache with
  | nil => exact past.begins_afterAll later
  | cons operation rest ih => exact ih (past.after operation)

end Chronicle

section Runs

variable {file : Url} {own other : Cache}

/-- In histories that are alike the same commits wait, for the refreshes in the same places. -/
theorem queueOf_of_alike {f : IssueId → IssueId} {g : Nat → Nat} {left : Chronicle own}
    {right : Chronicle other} (alike : Alike f g file left right) :
    right.queueOf file = left.queueOf file := by
  rw [Chronicle.queueOf, Chronicle.queueOf, alike.mirrors.waiting, List.map_map]
  refine List.map_congr_left fun pending member => ?_
  obtain ⟨waits, of⟩ := List.mem_filter.mp member
  have known := (left.names file).waiting pending waits (of_decide_eq_true of)
  have same : (right.generationsOf file).idxOf (g pending.generation) =
      (left.generationsOf file).idxOf pending.generation := by
    rw [← alike.generations, idxOf_map_of_injOn alike.injective known]
  rw [Function.comp_apply, WaitingCommit.renumber, WaitingCommit.renumber, WaitingCommit.renumber,
    same]

/-- An operation without a part for a file adds nothing to the history of it. -/
theorem own_after_of_foreign {past : Chronicle own} {operation : Operation}
    (foreign : past.part? file operation = none) :
    (past.after operation).own file = past.own file := by
  rw [past.own_after, foreign, Option.toList_none, List.flatMap_nil, List.append_nil]

/-- Operations without a part for a file add nothing to the history of it. -/
theorem own_afterAll_of_foreign {past : Chronicle own} {operations : List Operation}
    (foreign : past.partsOf file operations = []) :
    (past.afterAll operations).own file = past.own file := by
  induction operations generalizing own with
  | nil => rfl
  | cons operation rest ih =>
      obtain ⟨none, others⟩ := List.append_eq_nil_iff.mp foreign
      exact (ih others).trans (own_after_of_foreign (Option.toList_eq_nil_iff.mp none))

/-- The same part of two operations continues the same history of a file in the same way. -/
theorem own_after_eq {left : Chronicle own} {right : Chronicle other}
    (same : left.own file = right.own file) (few : left.reports.length < UInt64.size)
    (fewThere : right.reports.length < UInt64.size) {operation operationThere : Operation}
    (parts : left.part? file operation = right.part? file operationThere) :
    (left.after operation).own file = (right.after operationThere).own file := by
  obtain ⟨f, g, alike⟩ := exists_alike_of_own few fewThere same
  rw [left.own_after, right.own_after, same, parts, queueOf_of_alike alike]

/-- The same operations on a file make the same history of it, whatever others come in between. -/
theorem own_afterAll_eq {left : Chronicle own} {right : Chronicle other}
    (operations operationsThere : List Operation) (same : left.own file = right.own file)
    (few : (left.afterAll operations).reports.length < UInt64.size)
    (fewThere : (right.afterAll operationsThere).reports.length < UInt64.size)
    (parts : left.partsOf file operations = right.partsOf file operationsThere) :
    (left.afterAll operations).own file = (right.afterAll operationsThere).own file := by
  induction operations generalizing own other operationsThere with
  | nil => exact same.trans (own_afterAll_of_foreign parts.symm).symm
  | cons operation rest ih =>
      cases part : left.part? file operation with
      | none =>
          rw [Chronicle.partsOf, part, Option.toList_none, List.nil_append] at parts
          exact ih _ ((own_after_of_foreign part).trans same) few fewThere parts
      | some continues =>
          -- The run on the other side goes on to its own next operation that has a part for the
          -- file.
          induction operationsThere generalizing other with
          | nil => simp [Chronicle.partsOf, part] at parts
          | cons operationThere restThere ihThere =>
              cases partThere : right.part? file operationThere with
              | none =>
                  rw [Chronicle.partsOf, Chronicle.partsOf, partThere, Option.toList_none,
                    List.nil_append] at parts
                  exact ihThere (same.trans (own_after_of_foreign partThere).symm) fewThere parts
              | some continuesThere =>
                  rw [Chronicle.partsOf, Chronicle.partsOf, part, partThere] at parts
                  obtain ⟨first, later⟩ := List.cons.inj parts
                  have fewNow := (left.begins_afterAll (operation :: rest)).reports.length_le
                  have fewNowThere :=
                    (right.begins_afterAll (operationThere :: restThere)).reports.length_le
                  have sameNow := own_after_eq same (Nat.lt_of_le_of_lt fewNow few)
                    (Nat.lt_of_le_of_lt fewNowThere fewThere) (part.trans (first ▸ partThere.symm))
                  exact ih restThere sameNow few fewThere later

end Runs

/-- **Files do not interfere.** Let the same happen to a file in two chronicles, among anything else
on other files. Then one renaming that keeps the order of its identifiers makes both agree on the
file whenever they have got equally far with it: on all the lists of diagnostics published for it,
on the issues that a reader sees, their number, their versions and statuses, on the taint issues, on
whether they are being refreshed, on the fetches that have begun, and on the calls that have
returned. For runs, whose chronicles have their effects
(`IssueRelay.Cache.Chronicle.effects_ofRun`), it is enough that the operations on the file are the
same. -/
theorem files_do_not_interfere (file : Url) :
    (∀ {own other : Cache} (left : Chronicle own) (right : Chronicle other),
      left.own file = right.own file → left.reports.length < UInt64.size →
        right.reports.length < UInt64.size → AgreeThroughout file left right) ∧
      ∀ left right : List Operation, operationsOf file left = operationsOf file right →
        (Chronicle.ofRun left).reports.length < UInt64.size →
          (Chronicle.ofRun right).reports.length < UInt64.size →
            ∃ rename, KeepsOrder rename ((Chronicle.ofRun left).idsOf file) ∧
              ((Chronicle.ofRun left).idsOf file).map rename =
                (Chronicle.ofRun right).idsOf file ∧
              ∀ before beforeThere, before <+: left → beforeThere <+: right →
                operationsOf file before = operationsOf file beforeThere →
                  Agrees file rename (Chronicle.ofRun before) (Chronicle.ofRun beforeThere) := by
  refine ⟨fun left right same few fewThere => agreeThroughout_of_own few fewThere same, ?_⟩
  intro left right parts few fewThere
  have same : (Chronicle.ofRun left).own file = (Chronicle.ofRun right).own file :=
    own_afterAll_eq left right rfl few fewThere parts
  obtain ⟨rename, keeps, renamed, agree⟩ := agreeThroughout_of_own few fewThere same
  refine ⟨rename, keeps, renamed, ?_⟩
  rintro before beforeThere ⟨later, rfl⟩ ⟨laterThere, rfl⟩ sameBefore
  have begins := Chronicle.beginning.begins_afterAll_append before later
  have beginsThere := Chronicle.beginning.begins_afterAll_append beforeThere laterThere
  exact agree _ _ begins beginsThere (own_afterAll_eq before beforeThere rfl
    (Nat.lt_of_le_of_lt begins.reports.length_le few)
    (Nat.lt_of_le_of_lt beginsThere.reports.length_le fewThere) sameBefore)

/-! ## One file beside another -/

/-- A text beside the main one. -/
def sideDocument : Document where
  uri := { mainFile with path := .rooted ["p", "b.rs"] }
  version := 1
  relativePath := "p/b.rs"
  content := ""

/-- A pass over the main file that reports an issue. -/
def onePass : List Operation :=
  [.start mainFile, .report mainDocument (finding "one" 1), .succeed mainFile 0]

/-- The same pass, while an issue of another file is reported and its refresh goes on. -/
def onePassAmongOthers : List Operation :=
  [.schedule project [sideDocument], .start mainFile,
    .report sideDocument (finding "side" 1), .report mainDocument (finding "one" 1),
    .complete 0 none, .succeed mainFile 0]

/-- The report on the other file takes the first identifier, and that is all that differs. -/
theorem identifiers_shift :
    ∃ rename, rename ⟨1⟩ = ⟨2⟩ ∧
      Agrees mainFile rename (.ofRun onePass) (.ofRun onePassAmongOthers) := by
  obtain ⟨rename, _, renamed, agree⟩ :=
    (files_do_not_interfere mainFile).2 onePass onePassAmongOthers rfl (by decide) (by decide)
  exact ⟨rename, List.singleton_inj.mp renamed, agree _ _ List.prefix_rfl List.prefix_rfl rfl⟩

end IssueRelay.Cache
