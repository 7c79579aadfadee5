import IssueRelay.Proofs.Cache.Coherence
import Mathlib.Data.List.Count

/-!
# Passes that overlap by their commits

A pass that has succeeded waits for the refresh of its file, and the next pass may start before its
commit is made. The commit then takes whatever is in progress, which may be what the next pass has
reported. So the last pass is seen as it was reported exactly if none of its reports was made
while an older commit was waiting (`IssueRelay.Cache.last_pass_seen_iff_not_overtaken`).
-/

namespace IssueRelay.Cache

open Transition

/-- Where the passes over a file stand. -/
inductive PassPhase
  | notStarted
  | underWay
  | ended
  deriving DecidableEq, Repr

namespace Action

/-- The file whose passes an action is about. -/
def file? : Action → Option Url
  | .start file => some file
  | .report document _ => some document.uri
  | .reportTracked document _ _ => some document.uri
  | .fail file => some file
  | .succeed file _ => some file
  | .resume pending => some pending.file
  | .clear file => some file
  | _ => none

/-- Whether the pass over a file succeeds by an action. -/
def succeeds (file : Url) : Action → Bool
  | .succeed succeeded _ => succeeded = file
  | _ => false

/-- Whether an action is in its place: a pass over the file starts after the last one has
succeeded, reports and succeeds while it is under way, and neither fails nor is cleared. -/
def InOrder (phase : PassPhase) (file : Url) : Action → Prop
  | .start started => started = file → phase ≠ .underWay
  | .report document _ => document.uri = file → phase = .underWay
  | .reportTracked document _ _ => document.uri = file → phase = .underWay
  | .fail failed => failed ≠ file
  | .succeed succeeded _ => succeeded = file → phase = .underWay
  | .clear cleared => cleared ≠ file
  | _ => True

instance (phase : PassPhase) (file : Url) : (action : Action) →
    Decidable (action.InOrder phase file)
  | .start started => inferInstanceAs (Decidable (started = file → phase ≠ .underWay))
  | .report document _ => inferInstanceAs (Decidable (document.uri = file → phase = .underWay))
  | .reportTracked document _ _ =>
    inferInstanceAs (Decidable (document.uri = file → phase = .underWay))
  | .fail failed => inferInstanceAs (Decidable (failed ≠ file))
  | .succeed succeeded _ => inferInstanceAs (Decidable (succeeded = file → phase = .underWay))
  | .clear cleared => inferInstanceAs (Decidable (cleared ≠ file))
  | .resume _ | .schedule _ _ | .finish _ _ | .seedSecretSeen _ => isTrue trivial

end Action

/-- How many commits of a file are waiting. -/
def waits (cache : Cache) (file : Url) : Nat :=
  cache.waiting.countP (·.file = file)

/-- What is committed after a number of commits one after the other: the first takes what is in
progress, and each of the others finds nothing. -/
def settled : Nat → List Report → List Report → List Report
  | 0, _, committed => committed
  | 1, uncommitted, _ => uncommitted
  | _ + 2, _, _ => []

/-- A commit is one of those that are still to be made. -/
theorem settled_succ (commits : Nat) (uncommitted committed : List Report) :
    settled (commits + 1) uncommitted committed = settled commits [] uncommitted := by
  match commits with
  | 0 | 1 | _ + 2 => rfl

/-- A pass that commits when nothing is in progress leaves the file with nothing committed. -/
theorem settled_succ_nil (commits : Nat) (committed : List Report) :
    settled (commits + 1) [] committed = [] := by
  cases commits <;> rfl

namespace Chronicle

variable {cache : Cache}

/-- Where the passes over a file stand: a pass is under way from its start until it succeeds. -/
def phase (file : Url) : {cache : Cache} → Chronicle cache → PassPhase
  | _, .beginning => .notStarted
  | _, .next past action _ =>
    if action.starts file then .underWay
    else if action.succeeds file then .ended
    else past.phase file

/-- Passes over a file come one after the other, and only their commits may be late. -/
def Orderly (file : Url) : {cache : Cache} → Chronicle cache → Prop
  | _, .beginning => True
  | _, .next past action _ => past.Orderly file ∧ action.InOrder (past.phase file) file

instance decidableOrderly (file : Url) : {cache : Cache} → (past : Chronicle cache) →
    Decidable (past.Orderly file)
  | _, .beginning => isTrue trivial
  | _, .next past action _ =>
    have := decidableOrderly file past
    inferInstanceAs (Decidable (past.Orderly file ∧ action.InOrder (past.phase file) file))

/-- The reports of the pass over a file that has started last. -/
def reportsOfPass (file : Url) : {cache : Cache} → Chronicle cache → List Report
  | _, .beginning => []
  | _, @next cache past action _ =>
    if action.starts file then []
    else past.reportsOfPass file ++
      (action.reported? cache).toList.filter (·.file = file)

/-- Whether the pass over a file that has started last has made a report while a commit of an
older pass was waiting. -/
def overtaken (file : Url) : {cache : Cache} → Chronicle cache → Bool
  | _, .beginning => false
  | _, @next cache past action _ =>
    if action.starts file then false
    else past.overtaken file ||
      (action.reported? cache).any (·.file = file) && cache.waits file != 0

/-- How many commits of a file are still to be made: those that wait, and that of the pass that
is under way. -/
def outstanding (file : Url) (past : Chronicle cache) : Nat :=
  cache.waits file + if past.phase file = .underWay then 1 else 0

/-- What will be committed of a file when no commit is outstanding any more and nothing else has
been reported. -/
def outcome (file : Url) (past : Chronicle cache) : List Report :=
  settled (past.outstanding file) (past.uncommitted file) (past.committedReports file)

/-- What an action in order can do to the passes over a file: start the next one, report one more
issue, make a commit, or leave what is outstanding. -/
inductive PassChange (file : Url) (past : Chronicle cache) (action : Action)
    (possible : action.Possible cache) : Prop
  | start (phase : (past.next action possible).phase file = .underWay)
      (uncommitted : (past.next action possible).uncommitted file = [])
      (reports : (past.next action possible).reportsOfPass file = [])
      (overtaken : (past.next action possible).overtaken file = false)
  | report (report : Report) (during : past.phase file = .underWay)
      (phase : (past.next action possible).phase file = .underWay)
      (waits : (act action cache).1.waits file = cache.waits file)
      (uncommitted : (past.next action possible).uncommitted file =
        past.uncommitted file ++ [report])
      (reports : (past.next action possible).reportsOfPass file =
        past.reportsOfPass file ++ [report])
      (overtaken : (past.next action possible).overtaken file =
        (past.overtaken file || cache.waits file != 0))
  | commit (shows : past.shownBy? action = some file)
      (outstanding : past.outstanding file = (past.next action possible).outstanding file + 1)
      (uncommitted : (past.next action possible).uncommitted file = [])
      (committed : (past.next action possible).committedReports file = past.uncommitted file)
      (reports : (past.next action possible).reportsOfPass file = past.reportsOfPass file)
      (overtaken : (past.next action possible).overtaken file = past.overtaken file)
  | keep (outstanding : (past.next action possible).outstanding file = past.outstanding file)
      (uncommitted : (past.next action possible).uncommitted file = past.uncommitted file)
      (committed : (past.next action possible).committedReports file =
        past.committedReports file)
      (reports : (past.next action possible).reportsOfPass file = past.reportsOfPass file)
      (overtaken : (past.next action possible).overtaken file = past.overtaken file)
      (idle : past.outstanding file = 0 →
        action.drops file = false ∧ (past.next action possible).phase file = past.phase file)

/-- An action that is not about the passes over a file leaves them. -/
private theorem passChange_of_elsewhere (past : Chronicle cache) {file : Url} {action : Action}
    {possible : action.Possible cache} (elsewhere : action.file? ≠ some file) :
    PassChange file past action possible := by
  have starts : action.starts file = false := by
    cases action <;> simp_all [Action.file?, Action.starts]
  have drops : action.drops file = false := by
    cases action <;> simp_all [Action.file?, Action.drops]
  have succeeds : action.succeeds file = false := by
    cases action <;> simp_all [Action.file?, Action.succeeds]
  have commits : action.commits cache file = false := by
    cases action <;> simp_all [Action.file?, Action.commits]
  have clears : action.clears file = false := by
    cases action <;> simp_all [Action.file?, Action.clears]
  have silent : ∀ report, action.reported? cache = some report →
      report.file ≠ file := by
    rintro report reported rfl
    have shown := past.shownBy?_of_reported reported
    cases action <;> simp_all [Action.file?, Action.reported?, shownBy?]
  have waits : (act action cache).1.waits file = cache.waits file := by
    rw [waits, waiting_act]
    cases action <;> simp_all [Action.file?, Cache.waits, List.countP_erase]
  have same : (past.next action possible).phase file = past.phase file := by
    simp [phase, starts, succeeds]
  refine .keep ?_ ?_ ?_ ?_ ?_ fun _ => ⟨drops, same⟩
  · rw [outstanding, outstanding, same, waits]
  · simpa [uncommitted, Action.endsPass, commits, clears, drops] using silent
  · simp [committedReports, clears, commits]
  · simpa [reportsOfPass, starts] using silent
  · have unreported : (action.reported? cache).any (·.file = file) = false := by
      apply Bool.eq_false_iff.mpr
      intro reported
      obtain ⟨report, found, same⟩ := (Option.any_eq_true _ _).mp reported
      exact silent report found (of_decide_eq_true same)
    simp [overtaken, starts, unreported]

/-- A report belongs to the pass that is under way. -/
private theorem passChange_of_report {past : Chronicle cache} {file : Url} {action : Action}
    {possible : action.Possible cache} {report : Report} (during : past.phase file = .underWay)
    (reported : action.reported? cache = some report) (same : report.file = file)
    (starts : action.starts file = false) (succeeds : action.succeeds file = false)
    (continues : action.endsPass cache file = false)
    (waiting : (act action cache).1.waiting = cache.waiting) :
    PassChange file past action possible := by
  refine .report report during ?_ (by rw [waits, waiting, waits]) ?_ ?_ ?_
  · simp [phase, starts, succeeds, during]
  · simp [uncommitted, continues, reported, same]
  · simp [reportsOfPass, starts, reported, same]
  · simp [overtaken, starts, reported, same]

/-- Every action in order does one of these things to the passes over a file. -/
theorem passChange (past : Chronicle cache) (file : Url) {action : Action}
    (possible : action.Possible cache) (inOrder : action.InOrder (past.phase file) file) :
    PassChange file past action possible := by
  by_cases about : action.file? = some file
  · cases action with
    | start started =>
        obtain rfl := Option.some.inj about
        refine .start ?_ ?_ ?_ ?_
        · simp [phase, Action.starts]
        · simp [uncommitted, Action.endsPass, Action.drops]
        · simp [reportsOfPass, Action.starts]
        · simp [overtaken, Action.starts]
    | report document issue =>
        obtain same := Option.some.inj about
        exact passChange_of_report (inOrder same) rfl same rfl rfl rfl (waiting_act cache _)
    | reportTracked document issue known =>
        obtain same := Option.some.inj about
        exact passChange_of_report (inOrder same) rfl same rfl rfl rfl (waiting_act cache _)
    | fail failed => exact (inOrder (Option.some.inj about)).elim
    | clear cleared => exact (inOrder (Option.some.inj about)).elim
    | succeed succeeded ticket =>
        obtain rfl := Option.some.inj about
        have during := inOrder rfl
        cases unfinished : cache.unfinished? succeeded with
        | some generation =>
            refine .keep ?_ ?_ ?_ ?_ ?_ fun none => ?_
            · simp [outstanding, during, phase, Action.starts, Action.succeeds, waits, waiting_act,
                unfinished]
            · simp [uncommitted, Action.endsPass, Action.drops, Action.commits, Action.clears,
                unfinished, Action.reported?]
            · simp [committedReports, Action.clears, Action.commits, unfinished]
            · simp [reportsOfPass, Action.starts, Action.reported?]
            · simp [overtaken, Action.starts, Action.reported?]
            · simp [outstanding, during] at none
        | none =>
            refine .commit ?_ ?_ ?_ ?_ ?_ ?_
            · simp [shownBy?, unfinished]
            · simp [outstanding, during, phase, Action.starts, Action.succeeds, waits, waiting_act,
                unfinished]
            · simp [uncommitted, Action.endsPass, Action.commits, unfinished]
            · simp [committedReports, Action.clears, Action.commits, unfinished]
            · simp [reportsOfPass, Action.starts, Action.reported?]
            · simp [overtaken, Action.starts, Action.reported?]
    | resume pending =>
        obtain rfl := Option.some.inj about
        have present : 0 < cache.waits pending.file :=
          List.countP_pos_iff.mpr ⟨pending, possible.1, decide_eq_true rfl⟩
        refine .commit rfl ?_ ?_ ?_ ?_ ?_
        · have fewer : (act (.resume pending) cache).1.waits pending.file =
              cache.waits pending.file - 1 := by
            simp [waits, waiting_act, List.countP_erase, possible.1]
          have same : (past.next (.resume pending) possible).phase pending.file =
              past.phase pending.file := rfl
          rw [outstanding, outstanding, same, fewer]
          omega
        · simp [uncommitted, Action.endsPass, Action.commits]
        · simp [committedReports, Action.clears, Action.commits]
        · simp [reportsOfPass, Action.starts, Action.reported?]
        · simp [overtaken, Action.starts, Action.reported?]
    | schedule | finish | seedSecretSeen => cases about
  · exact passChange_of_elsewhere past about

/-- What the commits still to be made will leave of a file is an end of the last pass over it: all
of it, unless the pass has been overtaken. Once they are made, the editor has been shown. -/
structure Settles (file : Url) (past : Chronicle cache) : Prop where
  uncommitted : past.uncommitted file <:+ past.reportsOfPass file
  suffix : past.outcome file <:+ past.reportsOfPass file
  overtaken : past.overtaken file = true ↔ past.outcome file ≠ past.reportsOfPass file
  nil_of_none : past.outstanding file = 0 → past.uncommitted file = []
  kept : past.outstanding file = 0 → past.dropsShown file = false
  published : past.outstanding file = 0 → past.phase file = .ended →
    (past.lastPublished? file).isSome

/-- After every orderly chronicle, what is left of the last pass over a file is an end of its
reports, and all of them unless the pass has been overtaken. -/
theorem settles (past : Chronicle cache) (file : Url) (orderly : past.Orderly file) :
    past.Settles file := by
  induction past with
  | beginning =>
      exact ⟨List.suffix_rfl, List.suffix_rfl, ⟨nofun, fun different => (different rfl).elim⟩,
        fun _ => rfl, fun _ => rfl, nofun⟩
  | @next cache past action possible ih =>
      obtain ⟨earlier, inOrder⟩ := orderly
      obtain ⟨uncommittedBefore, suffix, overtakenBefore, nil, kept, published⟩ := ih earlier
      cases passChange past file possible inOrder with
      | start phase uncommitted reports overtaken =>
          have some : (past.next action possible).outstanding file =
              (act action cache).1.waits file + 1 := by simp [outstanding, phase]
          have left : (past.next action possible).outcome file = [] := by
            rw [outcome, uncommitted, some, settled_succ_nil]
          refine ⟨?_, ?_, ?_, fun none => ?_, fun none => ?_, fun none => ?_⟩
          · rw [uncommitted]
            exact List.nil_suffix
          · rw [left]
            exact List.nil_suffix
          · rw [left, reports, overtaken]
            simp
          · omega
          · omega
          · omega
      | report report during phase waits uncommitted reports overtaken =>
          -- With an older commit still to be made, the report is lost to it; otherwise it is kept.
          have before : past.outstanding file = cache.waits file + 1 := by
            simp [outstanding, during]
          have after : (past.next action possible).outstanding file = cache.waits file + 1 := by
            rw [outstanding, phase, waits]
            rfl
          have extended : past.uncommitted file ++ [report] <:+
              past.reportsOfPass file ++ [report] := by
            obtain ⟨lost, all⟩ := uncommittedBefore
            exact ⟨lost, by rw [← List.append_assoc, all]⟩
          refine ⟨?_, ?_, ?_, fun none => ?_, fun none => ?_, fun none => ?_⟩
          · rw [uncommitted, reports]
            exact extended
          · rw [outcome, after, uncommitted, reports]
            cases waiting : cache.waits file with
            | zero => exact extended
            | succ older => exact List.nil_suffix
          · rw [outcome, after, uncommitted, reports, overtaken]
            rw [outcome, before] at overtakenBefore
            cases waiting : cache.waits file with
            | zero =>
                rw [waiting] at overtakenBefore
                simpa [settled] using overtakenBefore
            | succ older => simp [settled]
          · omega
          · omega
          · omega
      | commit shows outstanding uncommitted committed reports overtaken =>
          -- The outcome counts the commits ahead, and this is the first of them.
          have same : (past.next action possible).outcome file = past.outcome file := by
            rw [outcome, outcome, uncommitted, committed, outstanding, settled_succ]
          refine ⟨?_, ?_, ?_, fun _ => uncommitted, fun _ => ?_, fun _ _ => ?_⟩
          · rw [uncommitted]
            exact List.nil_suffix
          · rw [same, reports]
            exact suffix
          · rw [same, reports, overtaken]
            exact overtakenBefore
          · rw [dropsShown_next, if_pos shows]
          · rw [lastPublished?_next, if_pos shows]
            rfl
      | keep outstanding uncommitted committed reports overtaken idle =>
          have same : (past.next action possible).outcome file = past.outcome file := by
            rw [outcome, outcome, outstanding, uncommitted, committed]
          rw [← outstanding] at nil kept published idle
          refine ⟨?_, ?_, ?_, fun none => ?_, fun none => ?_, fun none ended => ?_⟩
          · rw [uncommitted, reports]
            exact uncommittedBefore
          · rw [same, reports]
            exact suffix
          · rw [same, reports, overtaken]
            exact overtakenBefore
          · rw [uncommitted]
            exact nil none
          · rw [dropsShown_next, (idle none).1, kept none]
            simp
          · rw [lastPublished?_next]
            split
            · rfl
            · exact published none ((idle none).2 ▸ ended)

/-- The reports of the last pass stand among all the reports, in their order. -/
theorem reportsOfPass_sublist (past : Chronicle cache) (file : Url) :
    (past.reportsOfPass file).Sublist past.reports := by
  induction past with
  | beginning => exact .refl _
  | @next cache past action possible ih =>
      rw [reportsOfPass, reports]
      split
      · exact List.nil_sublist _
      · exact ih.append List.filter_sublist

/-- When no commit is outstanding, a reader sees what the last one has left of the pass. -/
theorem Settles.visibleReports_eq {past : Chronicle cache} {file : Url}
    (settles : past.Settles file) (none : past.outstanding file = 0) :
    past.visibleReports file = past.outcome file := by
  rw [visibleReports, outcome, settles.nil_of_none none, none]
  rfl

/-- While there are fewer reports than identifiers, a reader who sees one end of a pass does not
see another. -/
theorem eq_of_sees {past : Chronicle cache} {file : Url} {kept : List Report}
    (few : past.reports.length < UInt64.size) (suffix : kept <:+ past.reportsOfPass file)
    (seesKept : cache.Sees file kept) (seesAll : cache.Sees file (past.reportsOfPass file)) :
    kept = past.reportsOfPass file := by
  have distinct : ((past.reportsOfPass file).map Report.id).Nodup :=
    (past.nodup_ids few).sublist ((past.reportsOfPass_sublist file).map _)
  have distinctKept : (kept.map Report.id).Nodup := distinct.sublist (suffix.sublist.map _)
  have counts := seesKept.2.symm.trans seesAll.2
  rw [distinct.dedup, distinctKept.dedup, List.length_map, List.length_map] at counts
  exact suffix.eq_of_length counts

end Chronicle

/-- **Overlapping passes.** When passes over a file have come one after the other and all have been
committed, the editor is shown what a reader sees. That is what the last pass has reported, unless
it has been overtaken by a commit of an older one; in that case its first reports are lost. -/
theorem last_pass_seen_unless_overtaken {cache : Cache} (past : Chronicle cache) {file : Url}
    (orderly : past.Orderly file) (ended : past.phase file = .ended)
    (returned : cache.waits file = 0) :
    past.lastPublished? file = some (cache.shown file) ∧
      (past.overtaken file = false → cache.Sees file (past.reportsOfPass file)) ∧
      (past.overtaken file = true → ∃ lost kept, lost ≠ [] ∧
        past.reportsOfPass file = lost ++ kept ∧ cache.Sees file kept) ∧
      (past.reports.length < UInt64.size →
        (cache.Sees file (past.reportsOfPass file) ↔ past.overtaken file = false)) := by
  have settles := past.settles file orderly
  have none : past.outstanding file = 0 := by
    rw [Chronicle.outstanding, returned, ended]
    rfl
  have visible := settles.visibleReports_eq none
  have sees := sees_of_holds (past.refines file).current_holds
  have suffix := settles.suffix
  have overtaken := settles.overtaken
  rw [← visible] at suffix overtaken
  have whole : past.overtaken file = false →
      past.visibleReports file = past.reportsOfPass file := by
    intro undisturbed
    by_contra different
    rw [overtaken.mpr different] at undisturbed
    cases undisturbed
  refine ⟨?_, fun undisturbed => whole undisturbed ▸ sees, fun disturbed => ?_, fun few => ?_⟩
  · rcases past.lastPublished?_eq_shown file (settles.kept none) with shown | ⟨unpublished, _⟩
    · exact shown
    · have published := settles.published none ended
      rw [unpublished] at published
      cases published
  · obtain ⟨lost, all⟩ := suffix
    refine ⟨lost, past.visibleReports file, ?_, all.symm, sees⟩
    rintro rfl
    exact overtaken.mp disturbed all
  · refine ⟨fun seesAll => ?_, fun undisturbed => whole undisturbed ▸ sees⟩
    have equal := Chronicle.eq_of_sees few suffix sees seesAll
    exact Bool.eq_false_iff.mpr fun disturbed => overtaken.mp disturbed equal

/-! ## Two passes and one refresh -/

/-- The file of the passes. -/
def mainFile : Url where
  scheme := "file"
  authority := some { username := "", password := "", host := none, port := none }
  path := .rooted ["p", "a.rs"]
  query := none
  fragment := none

/-- The text that both passes are over. -/
def mainDocument : Document where
  uri := mainFile
  version := 1
  relativePath := "p/a.rs"
  content := ""

/-- The project of the server that is asked for taint issues. -/
def project : Binding where
  serverUrl :=
    { scheme := "http"
      authority := some { username := "", password := "", host := some (.domain "s"), port := none }
      path := .rooted [""]
      query := none
      fragment := none }
  token := none
  projectKey := "p"
  branch := none

/-- An issue at the beginning of a line. -/
def finding (message : String) (line : UInt32) : Issue where
  ruleKey := "r:1"
  message
  severity := .major
  range := { startLine := line, startColumn := 0, endLine := line, endColumn := 1 }
  flows := []

/-- Two passes that both succeed before a refresh ends, and are both committed after that. -/
def bothLate :=
  (((((((((Chronicle.beginning.next (.schedule project mainDocument) trivial).next
    (.start mainFile) trivial).next
    (.report mainDocument (finding "one" 1)) trivial).next
    (.succeed mainFile 0) trivial).next
    (.start mainFile) trivial).next
    (.report mainDocument (finding "two" 2)) trivial).next
    (.succeed mainFile 1) trivial).next
    (.finish ⟨0, mainFile⟩ (some [])) (by decide)).next
    (.resume ⟨0, mainFile, 0⟩) (by decide)).next
    (.resume ⟨1, mainFile, 0⟩) (by decide)

/-- The second of the two passes has been overtaken: a reader does not see all of its reports. -/
theorem exists_pass_overtaken :
    ∃ (cache : Cache) (past : Chronicle cache), past.Orderly mainFile ∧
      past.phase mainFile = .ended ∧ cache.waits mainFile = 0 ∧
        past.lastPublished? mainFile = some (cache.shown mainFile) ∧
          ∃ lost kept, lost ≠ [] ∧ past.reportsOfPass mainFile = lost ++ kept ∧
            cache.Sees mainFile kept := by
  have orderly : bothLate.Orderly mainFile := by decide
  have ended : bothLate.phase mainFile = .ended := by decide
  have overtaken : bothLate.overtaken mainFile = true := by decide
  obtain ⟨shown, _, loses, _⟩ :=
    last_pass_seen_unless_overtaken bothLate orderly ended (by decide)
  exact ⟨_, bothLate, orderly, ended, by decide, shown, loses overtaken⟩

/-- Passes in order whose commits have all been made need not show the last pass. -/
theorem last_pass_not_always_seen :
    ¬ ∀ (cache : Cache) (past : Chronicle cache) (file : Url), past.Orderly file →
      past.phase file = .ended → cache.waits file = 0 →
        cache.Sees file (past.reportsOfPass file) := by
  intro always
  have sees := always _ bothLate mainFile (by decide) (by decide) (by decide)
  have one : (bothLate.reportsOfPass mainFile).map Report.id = [⟨2⟩] := by decide
  have counts := sees.2
  rw [one] at counts
  revert counts
  decide

end IssueRelay.Cache
