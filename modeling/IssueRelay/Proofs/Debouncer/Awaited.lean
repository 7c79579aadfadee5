import IssueRelay.Debouncer
import Mathlib.Data.List.Nodup
import Mathlib.Data.List.Perm.Basic

/-!
# The task that is awaited for a file

Superseded tasks sleep on beside the newest one of their file, and a task that wakes up looks for
its entry by its generation only. What keeps them apart is that all but the newest have been given
notice, and that the entry of a file is the one of the task that is awaited
(`IssueRelay.Debouncer.Consistent`). So every operation acts on the awaited task of its own file,
and on nothing else.
-/

namespace IssueRelay.Debouncer

variable {τ : Type}

/-- The task that is awaited for a file. -/
def awaited? (debouncer : Debouncer τ) (file : Url) : Option (Timer τ) :=
  debouncer.awaited.find? (·.file = file)

/-- Notices are given out once, the entry of a file is the one of its awaited task, and there is no
other that is awaited for the file. -/
structure Consistent (debouncer : Debouncer τ) : Prop where
  issued : ∀ notice ∈ debouncer.sleeping.map (·.entry.notice), notice < debouncer.notices
  distinct : (debouncer.sleeping.map (·.entry.notice)).Nodup
  entries : ∀ file, debouncer.pending.get? file = (debouncer.awaited? file).map Timer.entry
  newest : ∀ timer ∈ debouncer.awaited, debouncer.awaited? timer.file = some timer

section Awaited

variable {debouncer : Debouncer τ} {file other : Url} {timer : Timer τ}

/-- The task found for a file is one of those awaited, and a task of this file. -/
theorem mem_awaited_of_awaited? (found : debouncer.awaited? file = some timer) :
    timer ∈ debouncer.awaited ∧ timer.file = file :=
  ⟨List.mem_of_find?_eq_some found, of_decide_eq_true (List.find?_some found :)⟩

/-- The awaited tasks of a file are the one that is found. -/
theorem Consistent.awaited?_eq_some_iff (consistent : Consistent debouncer) :
    debouncer.awaited? file = some timer ↔ timer ∈ debouncer.awaited ∧ timer.file = file := by
  refine ⟨mem_awaited_of_awaited?, ?_⟩
  rintro ⟨member, rfl⟩
  exact consistent.newest timer member

/-- No task is awaited twice. -/
theorem Consistent.nodup_awaited (consistent : Consistent debouncer) : debouncer.awaited.Nodup :=
  (List.Nodup.of_map _ consistent.distinct).filter _

/-- At most one task of a file is awaited. -/
theorem Consistent.filter_awaited (consistent : Consistent debouncer) :
    debouncer.awaited.filter (·.file = file) = (debouncer.awaited? file).toList := by
  cases found : debouncer.awaited? file with
  | none => simpa [awaited?] using found
  | some timer =>
      have same : (debouncer.awaited.filter (·.file = file)).Perm [timer] := by
        rw [List.perm_ext_iff_of_nodup (consistent.nodup_awaited.filter _) (List.nodup_singleton _)]
        intro other
        rw [List.mem_filter, decide_eq_true_iff, ← consistent.awaited?_eq_some_iff, found,
          Option.some_inj, List.mem_singleton, eq_comm]
      exact List.perm_singleton.mp same

/-- A file is pending exactly if a task is awaited for it. -/
theorem Consistent.isPending_eq (consistent : Consistent debouncer) :
    debouncer.isPending file = (debouncer.awaited? file).isSome := by
  rw [isPending, Dictionary.contains, consistent.entries, Option.isSome_map]

/-- Without tasks, a debouncer is consistent. -/
theorem consistent_withDelay (delay : UInt64) : Consistent (withDelay delay : Debouncer τ) where
  issued := by simp [withDelay]
  distinct := List.nodup_nil
  entries _ := rfl
  newest := by simp [awaited, withDelay]

end Awaited

/-! ## Notice -/

section Notice

variable {debouncer : Debouncer τ} {file other : Url}

/-- Notice does not change the notices by which tasks go. -/
@[simp] theorem map_notice_notify (notice : Nat) :
    (debouncer.notify notice).sleeping.map (·.entry.notice) =
      debouncer.sleeping.map (·.entry.notice) := by
  rw [notify, List.map_map]
  apply List.map_congr_left
  intro timer _
  by_cases same : timer.entry.notice = notice <;> simp [same]

/-- A task that has been given notice is not awaited any more. -/
theorem awaited_notify (notice : Nat) :
    (debouncer.notify notice).awaited = debouncer.awaited.filter (·.entry.notice ≠ notice) := by
  rw [awaited, awaited, notify]
  induction debouncer.sleeping with
  | nil => rfl
  | cons timer rest ih =>
      rw [List.map_cons, List.filter_cons, List.filter_cons, ih]
      by_cases same : timer.entry.notice = notice <;> by_cases ended : timer.notified <;>
        simp [same, ended]

/-- Notice to the task of an entry leaves those of other files. -/
theorem Consistent.awaited_notify_entry (consistent : Consistent debouncer) {entry : Pending}
    (found : debouncer.pending.get? file = some entry) :
    (debouncer.notify entry.notice).awaited = debouncer.awaited.filter (·.file ≠ file) := by
  rw [consistent.entries] at found
  obtain ⟨timer, waits, rfl⟩ := Option.map_eq_some_iff.mp found
  obtain ⟨member, rfl⟩ := mem_awaited_of_awaited? waits
  rw [awaited_notify]
  apply List.filter_congr
  intro other present
  have same : other.entry.notice = timer.entry.notice ↔ other.file = timer.file := by
    constructor
    · intro same
      exact congrArg Timer.file (List.inj_on_of_nodup_map consistent.distinct
        (List.mem_of_mem_filter present) (List.mem_of_mem_filter member) same)
    · intro same
      have newest := consistent.newest other present
      rw [same, waits, Option.some_inj] at newest
      rw [newest]
  simp [same]

/-- No task is awaited for a file without an entry. -/
theorem Consistent.awaited_of_unregistered (consistent : Consistent debouncer)
    (absent : debouncer.pending.get? file = none) :
    debouncer.awaited.filter (·.file ≠ file) = debouncer.awaited := by
  rw [consistent.entries, Option.map_eq_none_iff, awaited?, List.find?_eq_none] at absent
  exact List.filter_eq_self.mpr fun timer member => by simpa using absent timer member

/-- Cancelling a file leaves exactly the awaited tasks of the others. -/
theorem Consistent.awaited_cancel (consistent : Consistent debouncer) :
    (debouncer.cancel file).awaited = debouncer.awaited.filter (·.file ≠ file) := by
  unfold cancel
  split
  · rename_i entry found
    exact consistent.awaited_notify_entry found
  · rename_i absent
    exact (consistent.awaited_of_unregistered absent).symm

/-- A new entry for a file leaves exactly the awaited tasks of the others. -/
theorem Consistent.awaited_register (consistent : Consistent debouncer) (entry : Pending) :
    (debouncer.register file entry).awaited = debouncer.awaited.filter (·.file ≠ file) := by
  unfold register
  split
  · rename_i previous found
    exact consistent.awaited_notify_entry found
  · rename_i absent
    exact (consistent.awaited_of_unregistered absent).symm

end Notice

/-! ## The operations -/

section Operations

variable {debouncer : Debouncer τ} {file other : Url}

/-- Among the tasks of other files, those of the file are not found and all others are. -/
theorem find?_of_other_files (timers : List (Timer τ)) :
    (timers.filter (·.file ≠ file)).find? (·.file = other) =
      if other = file then none else timers.find? (·.file = other) := by
  rw [List.find?_filter]
  by_cases same : other = file
  · rw [if_pos same, List.find?_eq_none]
    simp [same]
  · rw [if_neg same]
    congr 1
    funext timer
    by_cases own : timer.file = other <;> simp [own, same]

/-- Cancelling a file ends the wait for its own task and no other. -/
theorem Consistent.awaited?_cancel (consistent : Consistent debouncer) (file other : Url) :
    (debouncer.cancel file).awaited? other =
      if other = file then none else debouncer.awaited? other := by
  rw [awaited?, consistent.awaited_cancel, find?_of_other_files, awaited?]

/-- The task that is scheduled next for a file. -/
def nextTimer (debouncer : Debouncer τ) (file : Url) (task : τ) : Timer τ where
  file := file
  entry := { generation := debouncer.generation, notice := debouncer.notices }
  deadline := debouncer.deadline?
  task := task
  notified := false

/-- A task that is scheduled falls asleep after all others. -/
theorem sleeping_schedule (task : τ) :
    (debouncer.schedule file task).sleeping =
      (debouncer.register file (debouncer.nextTimer file task).entry).sleeping ++
        [debouncer.nextTimer file task] := rfl

/-- The task scheduled for a file takes the place of the one that was awaited. -/
theorem Consistent.awaited_schedule (consistent : Consistent debouncer) (task : τ) :
    (debouncer.schedule file task).awaited =
      debouncer.awaited.filter (·.file ≠ file) ++ [debouncer.nextTimer file task] := by
  rw [awaited, sleeping_schedule, List.filter_append, ← awaited, consistent.awaited_register]
  rfl

/-- After scheduling for a file, the new task is awaited for it, and for the others the same as
before. -/
theorem Consistent.awaited?_schedule (consistent : Consistent debouncer) (file other : Url)
    (task : τ) :
    (debouncer.schedule file task).awaited? other =
      if other = file then some (debouncer.nextTimer file task) else debouncer.awaited? other := by
  rw [awaited?, consistent.awaited_schedule, List.find?_append, find?_of_other_files, awaited?]
  by_cases same : other = file
  · simp [same, nextTimer]
  · simp [same, nextTimer, Ne.symm same]

/-- Cancelling wakes up no task, and none goes by another notice. -/
theorem map_notice_cancel :
    (debouncer.cancel file).sleeping.map (·.entry.notice) =
      debouncer.sleeping.map (·.entry.notice) := by
  unfold cancel
  split
  · exact map_notice_notify _
  · rfl

/-- Cancelling gives out no notice. -/
theorem notices_cancel : (debouncer.cancel file).notices = debouncer.notices := by
  unfold cancel
  split <;> rfl

/-- A new entry wakes up no task, and none goes by another notice. -/
theorem map_notice_register (entry : Pending) :
    (debouncer.register file entry).sleeping.map (·.entry.notice) =
      debouncer.sleeping.map (·.entry.notice) := by
  unfold register
  split
  · exact map_notice_notify _
  · rfl

/-- Cancelling a file takes out its own entry and no other. -/
theorem get?_pending_cancel :
    (debouncer.cancel file).pending.get? other =
      if other = file then none else debouncer.pending.get? other := by
  by_cases same : other = file
  · have taken := debouncer.isPending_cancel_self file
    rw [isPending, Dictionary.contains, Option.isSome_eq_false_iff, Option.isNone_iff_eq_none]
      at taken
    rw [if_pos same, same, taken]
  · rw [if_neg same]
    unfold cancel
    split
    · exact Dictionary.get?_erase_of_ne _ same
    · rfl

/-- Cancelling keeps a debouncer consistent. -/
theorem Consistent.cancel (consistent : Consistent debouncer) (file : Url) :
    Consistent (debouncer.cancel file) where
  issued := by
    rw [map_notice_cancel, notices_cancel]
    exact consistent.issued
  distinct := by
    rw [map_notice_cancel]
    exact consistent.distinct
  entries other := by
    rw [get?_pending_cancel, consistent.awaited?_cancel, consistent.entries]
    split <;> rfl
  newest timer member := by
    rw [consistent.awaited_cancel] at member
    obtain ⟨awaits, elsewhere⟩ := List.mem_filter.mp member
    rw [consistent.awaited?_cancel, if_neg (of_decide_eq_true elsewhere)]
    exact consistent.newest timer awaits

/-- Scheduling keeps a debouncer consistent: the notice of the task is a new one. -/
theorem Consistent.schedule (consistent : Consistent debouncer) (file : Url) (task : τ) :
    Consistent (debouncer.schedule file task) where
  issued := by
    rw [sleeping_schedule, List.map_append, map_notice_register]
    intro notice member
    rcases List.mem_append.mp member with earlier | new
    · exact Nat.lt_succ_of_lt (consistent.issued notice earlier)
    · rw [List.mem_singleton.mp new]
      exact Nat.lt_succ_self _
  distinct := by
    rw [sleeping_schedule, List.map_append, map_notice_register]
    refine List.nodup_append.mpr
      ⟨consistent.distinct, List.nodup_singleton _, fun notice earlier new last => ?_⟩
    rw [List.mem_singleton.mp last]
    exact Nat.ne_of_lt (consistent.issued notice earlier)
  entries other := by
    rw [consistent.awaited?_schedule]
    by_cases same : other = file
    · rw [if_pos same, same]
      simp [Debouncer.schedule, nextTimer]
    · rw [if_neg same, ← consistent.entries]
      simp [Debouncer.schedule, Dictionary.get?_insert_of_ne _ _ same]
  newest timer member := by
    rw [consistent.awaited_schedule] at member
    rw [consistent.awaited?_schedule]
    rcases List.mem_append.mp member with earlier | new
    · obtain ⟨awaits, elsewhere⟩ := List.mem_filter.mp earlier
      rw [if_neg (of_decide_eq_true elsewhere)]
      exact consistent.newest timer awaits
    · rw [List.mem_singleton.mp new]
      exact if_pos rfl

/-- Another delay keeps a debouncer consistent. -/
theorem Consistent.setDelay (consistent : Consistent debouncer) (delay : UInt64) :
    Consistent (debouncer.setDelay delay) :=
  ⟨consistent.issued, consistent.distinct, consistent.entries, consistent.newest⟩

/-- The passing of time keeps a debouncer consistent. -/
theorem Consistent.advance (consistent : Consistent debouncer) (milliseconds : Nat) :
    Consistent (debouncer.advance milliseconds) :=
  ⟨consistent.issued, consistent.distinct, consistent.entries, consistent.newest⟩

end Operations

/-! ## Waking up -/

section Fire

variable (debouncer : Debouncer τ) {file : Url} {timer : Timer τ}

/-- A task that wakes up takes out the entry of its file if it has its own generation. -/
theorem get?_wake {entry : Pending} :
    (debouncer.wake timer).pending.get? file = some entry ↔
      debouncer.pending.get? file = some entry ∧
        (timer.file = file → entry.generation ≠ timer.entry.generation) := by
  by_cases same : timer.file = file
  · subst same
    unfold wake
    cases found : debouncer.pending.get? timer.file with
    | none => simp [found]
    | some own =>
        by_cases fits : own.generation = timer.entry.generation
        · simp only [fits, Option.any_some, decide_true, if_true, Dictionary.get?_erase_self,
            Option.some_inj]
          constructor
          · intro impossible
            cases impossible
          · rintro ⟨rfl, differs⟩
            exact (differs trivial fits).elim
        · simp only [fits, Option.any_some, decide_false, Bool.false_eq_true, if_false, found,
            Option.some_inj]
          constructor
          · rintro rfl
            exact ⟨rfl, fun _ => fits⟩
          · exact And.left
  · have kept : (debouncer.wake timer).pending.get? file = debouncer.pending.get? file := by
      unfold wake
      split
      · exact Dictionary.get?_erase_of_ne _ (Ne.symm same)
      · rfl
    rw [kept, and_iff_left (fun own => (same own).elim)]

/-- After several tasks have woken up, those entries are left whose generation none of them has. -/
theorem get?_foldl_wake (due : List (Timer τ)) {entry : Pending} :
    (due.foldl wake debouncer).pending.get? file = some entry ↔
      debouncer.pending.get? file = some entry ∧
        ∀ timer ∈ due, timer.file = file → entry.generation ≠ timer.entry.generation := by
  induction due generalizing debouncer with
  | nil => simp
  | cons timer rest ih =>
      rw [List.foldl_cons, ih, get?_wake, List.forall_mem_cons, and_assoc]

/-- Tasks that wake up change nothing but the entries. -/
theorem foldl_wake (due : List (Timer τ)) :
    ∃ pending, due.foldl wake debouncer = { debouncer with pending } := by
  induction due generalizing debouncer with
  | nil => exact ⟨debouncer.pending, rfl⟩
  | cons timer rest ih =>
      have kept : ∃ pending, debouncer.wake timer = { debouncer with pending } := by
        unfold wake
        split
        · exact ⟨_, rfl⟩
        · exact ⟨_, rfl⟩
      obtain ⟨own, woken⟩ := kept
      obtain ⟨pending, rest⟩ := ih (debouncer.wake timer)
      exact ⟨pending, by rw [List.foldl_cons, rest, woken]⟩

/-- The tasks that run are those that are awaited and whose deadline has come, each once. -/
theorem fire_perm :
    debouncer.fire.2.Perm (debouncer.awaited.filter (isDue debouncer.now)) := by
  have sorted := List.mergeSort_perm (debouncer.awaited.filter (isDue debouncer.now))
    fun left right => left.deadline.getD 0 ≤ right.deadline.getD 0
  simpa [fire, List.partition_eq_filter_filter] using sorted

/-- Running the due tasks changes the entries and leaves asleep those awaited tasks that are not
due. -/
theorem fire_fst :
    ∃ pending, debouncer.fire.1 =
      { debouncer with
        pending
        sleeping := debouncer.awaited.filter (!isDue debouncer.now ·) } := by
  obtain ⟨pending, woken⟩ := foldl_wake
    { debouncer with sleeping := debouncer.awaited.filter (!isDue debouncer.now ·) }
    debouncer.fire.2
  refine ⟨pending, woken ▸ ?_⟩
  simp [fire, List.partition_eq_filter_filter, Function.comp_def]

/-- After the due tasks have run, those entries are left whose generation none of them has. -/
theorem get?_fire {entry : Pending} :
    debouncer.fire.1.pending.get? file = some entry ↔
      debouncer.pending.get? file = some entry ∧
        ∀ timer ∈ debouncer.fire.2, timer.file = file →
          entry.generation ≠ timer.entry.generation := by
  exact get?_foldl_wake _ _

/-- After the due tasks have run, those that are not due are awaited. -/
theorem awaited_fire :
    debouncer.fire.1.awaited = debouncer.awaited.filter (!isDue debouncer.now ·) := by
  obtain ⟨pending, kept⟩ := debouncer.fire_fst
  rw [kept, awaited, awaited, List.filter_filter, List.filter_filter]
  simp [Bool.and_comm]

variable {debouncer}

/-- The tasks that run are those awaited that are due. -/
theorem mem_fire_iff :
    timer ∈ debouncer.fire.2 ↔
      timer ∈ debouncer.awaited ∧ isDue debouncer.now timer = true := by
  rw [debouncer.fire_perm.mem_iff, List.mem_filter]

/-- When the due tasks run, a file keeps its awaited task unless it is due. -/
theorem Consistent.awaited?_fire (consistent : Consistent debouncer) (file : Url) :
    debouncer.fire.1.awaited? file =
      (debouncer.awaited? file).filter (!isDue debouncer.now ·) := by
  have swapped : (debouncer.awaited.filter (!isDue debouncer.now ·)).filter (·.file = file) =
      ((debouncer.awaited? file).filter (!isDue debouncer.now ·)).toList := by
    rw [List.filter_comm, consistent.filter_awaited]
    cases debouncer.awaited? file <;> simp [Option.filter, List.filter_cons, apply_ite]
  rw [awaited?, awaited_fire, ← List.head?_filter, swapped, Option.head?_toList]

/-- Of the tasks of a file only the awaited one runs. -/
theorem Consistent.fired_of_file (consistent : Consistent debouncer) (file : Url) :
    debouncer.fire.2.filter (·.file = file) =
      ((debouncer.awaited? file).filter (isDue debouncer.now)).toList := by
  have same := debouncer.fire_perm.filter (·.file = file)
  rw [List.filter_comm, consistent.filter_awaited] at same
  cases awaits : debouncer.awaited? file with
  | none =>
      rw [awaits] at same
      exact List.perm_nil.mp same
  | some timer =>
      rw [awaits, Option.toList_some, List.filter_singleton] at same
      cases due : isDue debouncer.now timer with
      | true =>
          rw [due] at same
          rw [Option.filter_some, if_pos due]
          exact List.perm_singleton.mp same
      | false =>
          rw [due] at same
          rw [Option.filter_some, due]
          exact List.perm_nil.mp same

/-- Running the due tasks keeps a debouncer consistent. -/
theorem Consistent.fire (consistent : Consistent debouncer) : Consistent debouncer.fire.1 := by
  obtain ⟨pending, kept⟩ := debouncer.fire_fst
  have remains : debouncer.fire.1.sleeping.Sublist debouncer.sleeping := by
    rw [kept]
    exact List.filter_sublist.trans List.filter_sublist
  have notices : debouncer.fire.1.notices = debouncer.notices := by rw [kept]
  constructor
  case issued =>
    intro notice member
    rw [notices]
    exact consistent.issued notice ((remains.map _).subset member)
  case distinct => exact consistent.distinct.sublist (remains.map _)
  case entries =>
    intro file
    apply Option.ext
    intro entry
    rw [get?_fire, consistent.entries, consistent.awaited?_fire]
    cases awaits : debouncer.awaited? file with
    | none => simp
    | some own =>
        obtain ⟨member, rfl⟩ := mem_awaited_of_awaited? awaits
        cases due : isDue debouncer.now own with
        | true =>
            have runs : own ∈ debouncer.fire.2 := mem_fire_iff.mpr ⟨member, due⟩
            rw [Option.filter_some, due]
            constructor
            · rintro ⟨same, differs⟩
              rw [Option.map_some, Option.some_inj] at same
              exact (differs own runs rfl (congrArg Pending.generation same.symm)).elim
            · intro impossible
              cases impossible
        | false =>
            have others : ∀ timer ∈ debouncer.fire.2, timer.file = own.file →
                entry.generation ≠ timer.entry.generation := by
              intro timer runs same
              obtain ⟨awaited, late⟩ := mem_fire_iff.mp runs
              have newest := consistent.newest timer awaited
              rw [same, awaits, Option.some_inj] at newest
              rw [← newest, due] at late
              cases late
            rw [Option.filter_some, due]
            exact and_iff_left others
  case newest =>
    intro timer member
    rw [awaited_fire] at member
    obtain ⟨awaits, early⟩ := List.mem_filter.mp member
    rw [consistent.awaited?_fire, consistent.newest timer awaits, Option.filter_some, if_pos early]

end Fire

end IssueRelay.Debouncer
