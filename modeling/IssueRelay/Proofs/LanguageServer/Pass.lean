import IssueRelay.Proofs.LanguageServer.Tidy

/-!
# Passes of a tidy server

A pass is begun over an open file, and until it has ended its file is not at rest, whatever is
reported. When it has ended, its file is settled, and if that is left to a commit that waits for a
refresh, then the file is open. So a server stays tidy through passes.
-/

namespace IssueRelay.LanguageServer

open Transition

variable {watched exempt : Option Url} {file : Url}

/-- A commit that has to wait leaves its file to the refresh that it waits for, which is that of an
open file. -/
theorem succeed_tidies (ticket : Nat) :
    Ensures (fun server past => Tidy watched (some file) server past ∧
        (server.documents.contains file = false → Unrefreshed server.cache file))
      (Tidy watched none) (succeed file ticket) := by
  have succeeds :
      Preserves (Tidy watched (some file)) (onCache (Cache.act (.succeed file ticket))) :=
    preserves_act rfl (fun _ => trivial) fun cache => Cache.begun_act cache (.succeed file ticket)
  rintro server past ⟨tidy, unrefreshed⟩
  rw [succeed, inspect_apply]
  cases updating : server.cache.isUpdating file with
  | false => exact (succeeds.andThen settle_tidies) server past tidy
  | true =>
      have opened : server.documents.contains file = true := by
        by_contra closed
        have finished := (unrefreshed (Bool.eq_false_iff.mpr closed)).unfinished?
        rw [Cache.isUpdating, finished] at updating
        cases updating
      -- The commit waits, and the file is not settled before that is over.
      have waits := (succeeds.andThen preserves_idle) server past tidy
      apply waits.of_open
      obtain ⟨fetches, nextFetch, left⟩ := onCache_fst server (Cache.succeed file ticket)
      rw [andThen_idle, Cache.act, left]
      exact opened

/-- The failure of a pass leaves its file tidy again. -/
theorem fail_tidies : Ensures (Tidy watched (some file)) (Tidy watched none) (fail file) := by
  have fails : Preserves (Tidy watched (some file)) (onCache (Cache.act (.fail file))) :=
    preserves_act rfl (fun _ => trivial) fun cache => Cache.begun_act cache (.fail file)
  exact fails.andThen settle_tidies

/-! ## Beginning a pass -/

/-- A pass over an open file is about to begin, with a number of its own. -/
structure Beginning (watched : Option Url) (pass : Pass) (server : LanguageServer)
    (past : List Effect) : Prop where
  tidy : Tidy watched none server past
  opened : server.documents.contains pass.document.uri = true
  numbered : pass.number < server.nextPass
  latest : ∀ other ∈ server.passes, other.number < pass.number

variable {pass : Pass}

/-- What is done to the file of a pass that is about to begin leaves it about to begin. -/
theorem beginning_act {action : Cache.Action} (subject : action.subject? = some pass.document.uri)
    (possible : ∀ cache, action.Possible cache) :
    Preserves (Beginning watched pass) (onCache (Cache.act action)) := by
  rintro server past ⟨tidy, opened, numbered, latest⟩
  have stays := tidy.act action (possible server.cache)
    (fun refresh begun => by
      rw [Cache.Action.subject?_of_begun begun] at subject
      rw [Option.some.inj subject]
      exact opened)
    (fun file same => by
      rw [subject] at same
      rw [← Option.some.inj same]
      exact .inr (.inl opened))
  obtain ⟨fetches, nextFetch, left⟩ := onCache_fst server (Cache.act action)
  rw [left] at stays ⊢
  exact ⟨stays, opened, numbered, latest⟩

/-- When a pass is handed to its engine, no other file is concerned, and its own is open. -/
theorem Beginning.engage {server : LanguageServer} {past : List Effect}
    (begins : Beginning watched pass server past) :
    Tidy watched none { server with passes := server.passes ++ [pass] } past where
  reached := begins.tidy.reached
  numbered := by
    intro other member
    rcases List.mem_append.mp member with earlier | last
    · exact begins.tidy.numbered other earlier
    · rw [List.mem_singleton.mp last]
      exact begins.numbered
  distinct := by
    rw [List.map_append, List.map_singleton, List.nodup_append]
    refine ⟨begins.tidy.distinct, List.nodup_singleton _, ?_⟩
    rintro number earlier last member rfl
    obtain ⟨other, present, same⟩ := List.mem_map.mp earlier
    rw [List.mem_singleton.mp member] at same
    exact (begins.latest other present).ne same
  quiet := by
    intro file watching
    obtain ⟨⟨closed, disengaged, unwaiting⟩, unrefreshed⟩ := begins.tidy.quiet file watching
    have different : pass.document.uri ≠ file := by
      rintro rfl
      have opened := begins.opened
      rw [closed] at opened
      cases opened
    refine ⟨⟨closed, ?_, unwaiting⟩, unrefreshed⟩
    rw [List.any_append, disengaged, List.any_cons, decide_eq_false different]
    rfl
  unrefreshed := begins.tidy.unrefreshed
  forgotten := by
    rintro file counts ⟨closed, disengaged, unwaiting⟩
    rw [List.any_append, Bool.or_eq_false_iff] at disengaged
    exact begins.tidy.forgotten file counts ⟨closed, disengaged.1, unwaiting⟩

/-- A pass that is about to begin leaves the server tidy, whether an engine takes it or not. -/
theorem runPass_tidies : Ensures (Beginning watched pass) (Tidy watched none) (runPass pass) := by
  intro server past begins
  rw [runPass, inspect_apply]
  split
  · exact succeed_tidies pass.number server past
      ⟨begins.tidy.exempting pass.document.uri, begins.tidy.unrefreshed_of_closed⟩
  · have hands : publications [.beginPass pass server.engine] = [] := rfl
    exact preserves_emit hands _ past begins.engage

/-- Beginning a pass over an open document keeps the server tidy. -/
theorem beginPass_tidies (document : Document) :
    Ensures (fun server past => Tidy watched none server past ∧
        server.documents.contains document.uri = true)
      (Tidy watched none) (beginPass document) := by
  rintro server past ⟨tidy, opened⟩
  let pass : Pass := ⟨server.nextPass, document, server.binding.isSome⟩
  have begins : Beginning watched pass { server with nextPass := server.nextPass + 1 } past :=
    { tidy := tidy.of_same rfl rfl rfl (Nat.le_succ server.nextPass)
      opened
      numbered := Nat.lt_succ_self server.nextPass
      latest := tidy.numbered }
  have starts : Preserves (Beginning watched pass) (onCache (Cache.act (.start document.uri))) :=
    beginning_act rfl fun _ => trivial
  have refreshes : ∀ binding,
      Preserves (Beginning watched pass) (onCache (Cache.schedule binding [document])) := by
    intro binding
    have single : Cache.schedule binding [document] = Cache.act (.schedule binding document) :=
      andThen_idle _
    rw [single]
    exact beginning_act rfl fun _ => trivial
  refine (starts.andThen (Ensures.andThen ?_ runPass_tidies)) _ past begins
  split
  · exact refreshes _
  · exact preserves_idle

/-- Only open files are analyzed. -/
theorem analyze_tidies : Preserves (Tidy watched none) (analyze file) := by
  intro server past tidy
  rw [analyze, inspect_apply]
  cases found : server.document? file with
  | none => exact preserves_idle server past tidy
  | some document =>
      exact beginPass_tidies document server past
        ⟨tidy, DocumentStore.contains_of_snapshot? found⟩

/-! ## Passes under way -/

/-- The pass found by a number is under way, and it has this number. -/
theorem mem_of_pass? {server : LanguageServer} {number : Nat}
    (found : server.pass? number = some pass) : pass ∈ server.passes ∧ pass.number = number :=
  ⟨List.mem_of_find?_eq_some found, by simpa using List.find?_some found⟩

/-- A report keeps the server tidy. -/
theorem reportIssue_tidies (number : Nat) (issue : Issue) :
    Preserves (Tidy watched none) (reportIssue number issue) := by
  intro server past tidy
  rw [reportIssue, inspect_apply]
  cases found : server.pass? number with
  | none => exact preserves_idle server past tidy
  | some pass =>
      have analyzed : server.passes.any (·.document.uri = pass.document.uri) = true :=
        List.any_eq_true.mpr ⟨pass, (mem_of_pass? found).1, decide_eq_true rfl⟩
      have reports : ∀ action : Cache.Action, action.subject? = some pass.document.uri →
          action.Possible server.cache → Cache.begun (Cache.act action server.cache).2 = [] →
          Tidy watched none (onCache (Cache.act action) server).1
            (past ++ (onCache (Cache.act action) server).2) := by
        intro action subject possible unbegun
        apply tidy.act action possible
        · rw [unbegun]
          exact fun _ begun => nomatch begun
        · rw [subject]
          rintro file same
          rw [← Option.some.inj same]
          exact .inr (.inr analyzed)
      dsimp only
      split
      · exact reports (.reportTracked pass.document issue _) rfl trivial (Cache.begun_act _ _)
      · exact reports (.report pass.document issue) rfl trivial (Cache.begun_act _ _)

/-- When a pass leaves its engine, its file is exempt until it is settled. -/
theorem Tidy.endPass {server : LanguageServer} {past : List Effect}
    (tidy : Tidy watched none server past) (member : pass ∈ server.passes) :
    Tidy watched (some pass.document.uri)
      { server with passes := server.passes.filter (·.number ≠ pass.number) } past where
  reached := tidy.reached
  numbered := fun other remains => tidy.numbered other (List.mem_of_mem_filter remains)
  distinct := tidy.distinct.sublist (List.filter_sublist.map _)
  quiet := by
    intro file watching
    obtain ⟨⟨closed, disengaged, unwaiting⟩, unrefreshed⟩ := tidy.quiet file watching
    refine ⟨⟨closed, ?_, unwaiting⟩, unrefreshed⟩
    apply List.any_eq_false.mpr
    exact fun other remains =>
      List.any_eq_false.mp disengaged other (List.mem_of_mem_filter remains)
  unrefreshed := fun _ _ => tidy.unrefreshed_of_closed
  forgotten := by
    rintro file counts ⟨closed, disengaged, unwaiting⟩
    have before : server.passes.any (·.document.uri = file) = false := by
      apply List.any_eq_false.mpr
      intro other present same
      have remains : other ∈ server.passes.filter (·.number ≠ pass.number) := by
        apply List.mem_filter.mpr
        -- Another pass over another file has another number.
        refine ⟨present, decide_eq_true fun numbers => counts ?_⟩
        rw [← List.inj_on_of_nodup_map tidy.distinct present member numbers]
        exact congrArg some (of_decide_eq_true same)
      exact List.any_eq_false.mp disengaged other remains same
    exact tidy.forgotten_of_atRest ⟨closed, before, unwaiting⟩

/-- The end of a pass keeps the server tidy. -/
theorem endPass_tidies (number : Nat) (succeeded : Bool) :
    Preserves (Tidy watched none) (endPass number succeeded) := by
  intro server past tidy
  rw [LanguageServer.endPass, inspect_apply]
  cases found : server.pass? number with
  | none => exact preserves_idle server past tidy
  | some pass =>
      obtain ⟨member, rfl⟩ := mem_of_pass? found
      have left := tidy.endPass member
      dsimp only
      split
      · exact succeed_tidies pass.number _ past
          ⟨left, tidy.unrefreshed_of_closed⟩
      · exact fail_tidies _ past left

end IssueRelay.LanguageServer
