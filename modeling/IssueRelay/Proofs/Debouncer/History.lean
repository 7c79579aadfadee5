import IssueRelay.Proofs.Debouncer.Awaited
import IssueRelay.Proofs.Transition
import Mathlib.Algebra.GroupWithZero.Nat
import Mathlib.Data.List.Induction
import Mathlib.Data.Nat.Find

/-!
# When debounced tasks run

A task runs at its deadline if its file has been quiet since it was scheduled, and otherwise never.
This is told of whole histories of calls, in which a task is known by the place of the call that
schedules it (`IssueRelay.Debouncer.Runs`), and a debouncer does exactly that
(`IssueRelay.Debouncer.runs_when_quiet`).
-/

namespace IssueRelay.Debouncer

open Transition

variable {τ : Type}

/-! ## Calls -/

/-- Something that is done to a debouncer, or time that passes. -/
inductive Call (τ : Type)
  | schedule (file : Url) (task : τ)
  | cancel (file : Url)
  | setDelay (delay : UInt64)
  | advance (milliseconds : Nat)

namespace Call

/-- What a call changes before any task runs. -/
def apply : Call τ → Debouncer τ → Debouncer τ
  | .schedule file task => (·.schedule file task)
  | .cancel file => (·.cancel file)
  | .setDelay delay => (·.setDelay delay)
  | .advance milliseconds => (·.advance milliseconds)

/-- Whether a call schedules a task. -/
def schedules : Call τ → Bool
  | .schedule _ _ => true
  | _ => false

/-- Whether a call schedules a task for a file or cancels it. -/
def concerns (file : Url) : Call τ → Bool
  | .schedule scheduled _ => scheduled = file
  | .cancel cancelled => cancelled = file
  | _ => false

/-- Whether a call schedules a task for another file or cancels it. -/
def isForeign (file : Url) : Call τ → Bool
  | .schedule scheduled _ => scheduled ≠ file
  | .cancel cancelled => cancelled ≠ file
  | _ => false

/-- The time that passes by a call. -/
def milliseconds : Call τ → Nat
  | .advance milliseconds => milliseconds
  | _ => 0

/-- The delay in force after a call. -/
def delayAfter (delay : UInt64) : Call τ → UInt64
  | .setDelay delay => delay
  | _ => delay

/-- The task that a call to a debouncer schedules. -/
def timer? (debouncer : Debouncer τ) : Call τ → Option (Timer τ)
  | .schedule file task => some (debouncer.nextTimer file task)
  | _ => none

end Call

/-- What a call does: tasks whose deadline has come then run in the same step. -/
def perform (call : Call τ) : Transition (Debouncer τ) (Timer τ) :=
  (change call.apply).andThen fire

/-- What a sequence of calls does. -/
def run : List (Call τ) → Transition (Debouncer τ) (Timer τ) :=
  each perform

section Perform

variable {debouncer : Debouncer τ} {call : Call τ} {file : Url} {timer : Timer τ}

/-- Every call keeps a debouncer consistent. -/
theorem Consistent.apply (consistent : Consistent debouncer) (call : Call τ) :
    Consistent (call.apply debouncer) := by
  cases call with
  | schedule file task => exact consistent.schedule file task
  | cancel file => exact consistent.cancel file
  | setDelay delay => exact consistent.setDelay delay
  | advance milliseconds => exact consistent.advance milliseconds

/-- Every call with the tasks that run by it keeps a debouncer consistent. -/
theorem consistent_perform (consistent : Consistent debouncer) (call : Call τ) :
    Consistent (perform call debouncer).1 :=
  (consistent.apply call).fire

/-- A call decides which task is awaited for the files that it concerns, and leaves it for the
others. -/
theorem Consistent.awaited?_apply (consistent : Consistent debouncer) (call : Call τ)
    (file : Url) :
    (call.apply debouncer).awaited? file =
      if call.concerns file then call.timer? debouncer else debouncer.awaited? file := by
  cases call with
  | schedule scheduled task =>
      simpa [Call.apply, Call.concerns, Call.timer?, eq_comm] using
        consistent.awaited?_schedule scheduled file task
  | cancel cancelled =>
      simpa [Call.apply, Call.concerns, Call.timer?, eq_comm] using
        consistent.awaited?_cancel cancelled file
  | setDelay delay => rfl
  | advance milliseconds => rfl

/-- Cancelling changes nothing but the entries and the sleeping tasks. -/
theorem cancel_eq (debouncer : Debouncer τ) (file : Url) :
    ∃ pending sleeping, debouncer.cancel file = { debouncer with pending, sleeping } := by
  unfold cancel
  split
  · exact ⟨_, _, rfl⟩
  · exact ⟨_, _, rfl⟩

/-- A new entry changes nothing but the entries and the sleeping tasks. -/
theorem register_eq (debouncer : Debouncer τ) (file : Url) (entry : Pending) :
    ∃ pending sleeping, debouncer.register file entry =
      { debouncer with pending, sleeping } := by
  unfold register
  split
  · exact ⟨_, _, rfl⟩
  · exact ⟨_, _, rfl⟩

/-- What a call changes besides the entries and the sleeping tasks is the delay, the time and the
next generation and notice. -/
theorem apply_eq (call : Call τ) (debouncer : Debouncer τ) :
    ∃ pending sleeping, call.apply debouncer =
      { delay := call.delayAfter debouncer.delay
        now := debouncer.now + call.milliseconds
        generation :=
          if call.schedules then debouncer.generation + 1 else debouncer.generation
        notices := if call.schedules then debouncer.notices + 1 else debouncer.notices
        pending, sleeping } := by
  cases call with
  | schedule file task =>
      obtain ⟨_, _, registered⟩ := debouncer.register_eq file (debouncer.nextTimer file task).entry
      have applied : (Call.schedule file task).apply debouncer =
          { debouncer.register file (debouncer.nextTimer file task).entry with
            generation := debouncer.generation + 1
            notices := debouncer.notices + 1
            sleeping := (debouncer.schedule file task).sleeping } := rfl
      rw [applied, registered]
      exact ⟨_, _, rfl⟩
  | cancel file => exact debouncer.cancel_eq file
  | setDelay delay => exact ⟨_, _, rfl⟩
  | advance milliseconds => exact ⟨_, _, rfl⟩

/-- The time after a call is that before it and what passes by the call. -/
theorem now_apply (call : Call τ) (debouncer : Debouncer τ) :
    (call.apply debouncer).now = debouncer.now + call.milliseconds := by
  obtain ⟨_, _, applied⟩ := apply_eq call debouncer
  rw [applied]

/-- The tasks that run by a call change nothing but the entries and the sleeping tasks. -/
theorem perform_fst (call : Call τ) (debouncer : Debouncer τ) :
    ∃ pending sleeping, (perform call debouncer).1 =
      { call.apply debouncer with pending, sleeping } := by
  obtain ⟨pending, kept⟩ := (call.apply debouncer).fire_fst
  exact ⟨pending, _, kept⟩

/-- A call that schedules a task concerns the file of this task only. -/
theorem concerns_iff_of_timer? (scheduled : call.timer? debouncer = some timer) :
    call.concerns file = true ↔ timer.file = file := by
  cases call with
  | schedule own task =>
      cases scheduled
      exact decide_eq_true_iff
  | cancel own => cases scheduled
  | setDelay delay => cases scheduled
  | advance milliseconds => cases scheduled

/-- A sequence with one call more is the sequence and then the call. -/
theorem run_snoc (calls : List (Call τ)) (call : Call τ) (debouncer : Debouncer τ) :
    run (calls ++ [call]) debouncer =
      ((perform call (run calls debouncer).1).1,
        (run calls debouncer).2 ++ (perform call (run calls debouncer).1).2) := by
  rw [run, each_append, each_cons, each_nil, andThen_idle, andThen_apply]

/-- Every sequence of calls keeps a debouncer consistent. -/
theorem consistent_run (consistent : Consistent debouncer) (calls : List (Call τ)) :
    Consistent (run calls debouncer).1 := by
  induction calls using List.reverseRecOn with
  | nil => exact consistent
  | append_singleton calls call ih =>
      rw [run_snoc]
      exact consistent_perform ih call

end Perform

/-! ## Histories -/

/-- The time after a history of calls. -/
def clock (calls : List (Call τ)) : Nat :=
  (calls.map Call.milliseconds).sum

/-- The delay in force after a history of calls. -/
def delayAfter (delay : UInt64) (calls : List (Call τ)) : UInt64 :=
  calls.foldl Call.delayAfter delay

/-- The deadline of a task that is scheduled after a history of calls. -/
def deadlineAfter (delay : UInt64) (calls : List (Call τ)) : Option Nat :=
  if delayAfter delay calls = forever then none
  else some (clock calls + (delayAfter delay calls).toNat)

/-- The entry of a task that is scheduled after a history of calls. -/
def entryAfter (calls : List (Call τ)) : Pending where
  generation := .ofNat (calls.countP Call.schedules)
  notice := calls.countP Call.schedules

/-- The task that a call after a history of calls schedules. -/
def timerAfter? (delay : UInt64) (calls : List (Call τ)) : Call τ → Option (Timer τ)
  | .schedule file task =>
    some {
      file, entry := entryAfter calls, deadline := deadlineAfter delay calls, task
      notified := false }
  | _ => none

/-- The task that the call at a place schedules. Its deadline is the time of the call and the delay
in force then, whatever comes later. -/
def timerAt? (delay : UInt64) (calls : List (Call τ)) (place : Nat) : Option (Timer τ) :=
  calls[place]?.bind (timerAfter? delay (calls.take place))

/-- Whether the file of a task has been quiet since the call at a place: none of the calls that have
followed concerns it. -/
def Quiet (calls : List (Call τ)) (place : Nat) (timer : Timer τ) : Prop :=
  ∀ call ∈ calls.drop (place + 1), call.concerns timer.file = false

/-- The task of a place waits after a history of calls. -/
structure Waits (delay : UInt64) (calls : List (Call τ)) (place : Nat) (timer : Timer τ) :
    Prop where
  scheduled : timerAt? delay calls place = some timer
  quiet : Quiet calls place timer
  early : isDue (clock calls) timer = false

/-- The task of a place runs in the last call of a history: its deadline has come with this call and
not before, and its file has been quiet until then. -/
structure Runs (delay : UInt64) (calls : List (Call τ)) (place : Nat) (timer : Timer τ) :
    Prop where
  scheduled : timerAt? delay calls place = some timer
  quiet : Quiet calls place timer
  due : isDue (clock calls) timer = true
  first : ∀ count, place < count → count < calls.length →
    isDue (clock (calls.take count)) timer = false

/-! ### Time -/

section Histories

variable {delay : UInt64} {calls earlier : List (Call τ)} {call : Call τ} {place other : Nat}
  {timer : Timer τ}

/-- A task that is not due later is not due now. -/
theorem isDue_mono {now later : Nat} (passes : now ≤ later)
    (early : isDue later timer = false) : isDue now timer = false := by
  cases deadline : timer.deadline with
  | none => simp [isDue, deadline]
  | some moment =>
      simp only [isDue, deadline, Option.any_some, decide_eq_false_iff_not] at early ⊢
      omega

/-- The time that passes by two histories is that of the first and that of the second. -/
theorem clock_append (calls later : List (Call τ)) :
    clock (calls ++ later) = clock calls + clock later := by
  rw [clock, clock, clock, List.map_append, List.sum_append]

/-- No time is later at the beginning of a history than at its end. -/
theorem clock_le_of_begins (begins : earlier <+: calls) : clock earlier ≤ clock calls := by
  obtain ⟨later, rfl⟩ := begins
  rw [clock_append]
  exact Nat.le_add_right _ _

/-! ### Places -/

/-- Tasks are scheduled at places of the history only. -/
theorem lt_of_timerAt? (scheduled : timerAt? delay calls place = some timer) :
    place < calls.length := by
  by_contra beyond
  rw [timerAt?, List.getElem?_eq_none (Nat.le_of_not_lt beyond)] at scheduled
  cases scheduled

/-- What is scheduled at a place does not depend on the calls after it. -/
theorem timerAt?_of_begins (begins : earlier <+: calls) (within : place < earlier.length) :
    timerAt? delay calls place = timerAt? delay earlier place := by
  obtain ⟨later, rfl⟩ := begins
  rw [timerAt?, timerAt?, List.getElem?_append_left within,
    List.take_append_of_le_length (Nat.le_of_lt within)]

/-- At the place of the last call stands the task that it schedules. -/
theorem timerAt?_snoc_self :
    timerAt? delay (calls ++ [call]) calls.length = timerAfter? delay calls call := by
  rw [timerAt?, List.getElem?_concat_length, List.take_left, Option.bind_some]

/-- The task of a place is the one that the call there schedules, with the entry and the deadline of
that moment. -/
theorem call_of_timerAt? (scheduled : timerAt? delay calls place = some timer) :
    calls[place]? = some (.schedule timer.file timer.task) ∧
      timer.entry = entryAfter (calls.take place) ∧
      timer.deadline = deadlineAfter delay (calls.take place) := by
  obtain ⟨call, found, made⟩ := Option.bind_eq_some_iff.mp scheduled
  cases call with
  | schedule file task =>
      cases made
      exact ⟨found, rfl, rfl⟩
  | cancel file => cases made
  | setDelay delay => cases made
  | advance milliseconds => cases made

/-- The notice of a task says how many were scheduled before it. -/
theorem notice_of_timerAt? (scheduled : timerAt? delay calls place = some timer) :
    timer.entry.notice = (calls.take place).countP Call.schedules ∧
      (calls.take (place + 1)).countP Call.schedules = timer.entry.notice + 1 := by
  obtain ⟨found, entry, _⟩ := call_of_timerAt? scheduled
  rw [List.take_add_one, found, List.countP_append, entry]
  exact ⟨rfl, rfl⟩

/-- No two tasks share a notice. -/
theorem place_eq_of_timerAt? (one : timerAt? delay calls place = some timer)
    (another : timerAt? delay calls other = some timer) : place = other := by
  have below : ∀ {left right : Nat}, timerAt? delay calls left = some timer →
      timerAt? delay calls right = some timer → ¬ left < right := by
    intro left right first second before
    have counted : (calls.take (left + 1)).countP Call.schedules ≤
        (calls.take right).countP Call.schedules :=
      (List.take_sublist_take_left before).countP_le
    rw [(notice_of_timerAt? first).2, ← (notice_of_timerAt? second).1] at counted
    exact Nat.not_succ_le_self _ counted
  exact Nat.le_antisymm (Nat.le_of_not_lt (below another one))
    (Nat.le_of_not_lt (below one another))

/-- With one call more, a file is still quiet unless the call concerns it. -/
theorem quiet_snoc_of_lt (within : place < calls.length) :
    Quiet (calls ++ [call]) place timer ↔
      Quiet calls place timer ∧ call.concerns timer.file = false := by
  rw [Quiet, List.drop_append_of_le_length (Nat.succ_le_of_lt within), List.forall_mem_append,
    List.forall_mem_singleton]
  rfl

/-- A file is quiet right after the call that schedules its task. -/
theorem quiet_snoc_self : Quiet (calls ++ [call]) calls.length timer := by
  simp [Quiet]

/-- A file that is quiet to the end of a history is so at every point before. -/
theorem Quiet.of_begins (quiet : Quiet calls place timer) (begins : earlier <+: calls) :
    Quiet earlier place timer := by
  obtain ⟨later, rfl⟩ := begins
  intro call member
  apply quiet call
  rw [List.drop_append]
  exact List.mem_append_left _ member

/-! ### One call more -/

/-- The tasks that wait when a call has been made, before any runs: those that have waited before
and that it does not concern, and the one that it schedules. -/
def Stays (delay : UInt64) (calls : List (Call τ)) (call : Call τ) (place : Nat)
    (timer : Timer τ) : Prop :=
  Waits delay calls place timer ∧ call.concerns timer.file = false ∨
    place = calls.length ∧ timerAfter? delay calls call = some timer

/-- A task stays when a call is made exactly if its file is still quiet and it was not due before
the call. -/
theorem stays_iff :
    Stays delay calls call place timer ↔
      timerAt? delay (calls ++ [call]) place = some timer ∧
        Quiet (calls ++ [call]) place timer ∧
          (place < calls.length → isDue (clock calls) timer = false) := by
  have begins : calls <+: calls ++ [call] := List.prefix_append _ _
  constructor
  · rintro (⟨⟨scheduled, quiet, early⟩, unconcerned⟩ | ⟨rfl, scheduled⟩)
    · have within := lt_of_timerAt? scheduled
      exact ⟨(timerAt?_of_begins begins within).trans scheduled,
        (quiet_snoc_of_lt within).mpr ⟨quiet, unconcerned⟩, fun _ => early⟩
    · exact ⟨timerAt?_snoc_self.trans scheduled, quiet_snoc_self,
        fun impossible => (Nat.lt_irrefl _ impossible).elim⟩
  · rintro ⟨scheduled, quiet, early⟩
    have within := lt_of_timerAt? scheduled
    rw [List.length_append, List.length_singleton, Nat.lt_succ_iff_lt_or_eq] at within
    rcases within with within | rfl
    · rw [timerAt?_of_begins begins within] at scheduled
      obtain ⟨before, unconcerned⟩ := (quiet_snoc_of_lt within).mp quiet
      exact .inl ⟨⟨scheduled, before, early within⟩, unconcerned⟩
    · exact .inr ⟨rfl, timerAt?_snoc_self.symm.trans scheduled⟩

/-- A task waits after one call more exactly if it stays and is not due by then. -/
theorem waits_snoc_iff :
    Waits delay (calls ++ [call]) place timer ↔
      Stays delay calls call place timer ∧ isDue (clock (calls ++ [call])) timer = false := by
  rw [stays_iff]
  constructor
  · rintro ⟨scheduled, quiet, early⟩
    have before := isDue_mono (clock_le_of_begins (List.prefix_append calls [call])) early
    exact ⟨⟨scheduled, quiet, fun _ => before⟩, early⟩
  · rintro ⟨⟨scheduled, quiet, _⟩, early⟩
    exact ⟨scheduled, quiet, early⟩

/-- A task runs by one call more exactly if it stays and is due by then. -/
theorem runs_snoc_iff :
    Runs delay (calls ++ [call]) place timer ↔
      Stays delay calls call place timer ∧ isDue (clock (calls ++ [call])) timer = true := by
  rw [stays_iff]
  constructor
  · rintro ⟨scheduled, quiet, due, first⟩
    refine ⟨⟨scheduled, quiet, fun within => ?_⟩, due⟩
    have before := first calls.length within (by simp)
    rwa [List.take_left] at before
  · rintro ⟨⟨scheduled, quiet, early⟩, due⟩
    refine ⟨scheduled, quiet, due, fun count after within => ?_⟩
    rw [List.length_append, List.length_singleton, Nat.lt_succ_iff] at within
    rw [List.take_append_of_le_length within]
    exact isDue_mono (clock_le_of_begins (List.take_prefix count calls))
      (early (Nat.lt_of_lt_of_le after within))

/-- A task whose deadline has come while its file was quiet has run when it came. -/
theorem exists_runs (scheduled : timerAt? delay calls place = some timer)
    (quiet : Quiet calls place timer) (due : isDue (clock calls) timer = true) :
    ∃ earlier, earlier <+: calls ∧ Runs delay earlier place timer := by
  have comes : ∃ count, place < count ∧ isDue (clock (calls.take count)) timer = true :=
    ⟨calls.length, lt_of_timerAt? scheduled, by rwa [List.take_length]⟩
  obtain ⟨after, moment⟩ := Nat.find_spec comes
  have begins := List.take_prefix (Nat.find comes) calls
  have within : place < (calls.take (Nat.find comes)).length := by
    rw [List.length_take]
    exact Nat.lt_min.mpr ⟨after, lt_of_timerAt? scheduled⟩
  refine ⟨_, begins, ?_, quiet.of_begins begins, moment, fun count later before => ?_⟩
  · rw [← timerAt?_of_begins begins within, scheduled]
  · rw [List.length_take] at before
    have sooner : count < Nat.find comes := Nat.lt_of_lt_of_le before (Nat.min_le_left _ _)
    rw [List.take_take, Nat.min_eq_left (Nat.le_of_lt sooner)]
    exact Bool.eq_false_iff.mpr fun late => Nat.find_min comes sooner ⟨later, late⟩

/-- A task runs once: it has not run before. -/
theorem Runs.eq_of_begins (runs : Runs delay calls place timer) (begins : earlier <+: calls)
    (before : Runs delay earlier other timer) : earlier = calls := by
  have within := lt_of_timerAt? before.scheduled
  have same : place = other := place_eq_of_timerAt? runs.scheduled <|
    (timerAt?_of_begins begins within).trans before.scheduled
  by_contra differs
  have shorter : earlier.length < calls.length :=
    Nat.lt_of_le_of_ne begins.length_le fun equal => differs (begins.eq_of_length equal)
  have early := runs.first earlier.length (same ▸ within) shorter
  rw [← List.prefix_iff_eq_take.mp begins, before.due] at early
  cases early

end Histories

/-! ## What a debouncer does -/

section Run

variable (delay : UInt64) (calls : List (Call τ))

/-- The debouncer after a history of calls. -/
def after : Debouncer τ :=
  (run calls (withDelay delay)).1

/-- The tasks that have run in a history of calls, in order. -/
def ran : List (Timer τ) :=
  (run calls (withDelay delay)).2

/-- The debouncer after any history is consistent. -/
theorem consistent_after : Consistent (after delay calls) :=
  consistent_run (consistent_withDelay delay) calls

/-- The debouncer after one call more is what the call makes of the one before. -/
theorem after_snoc (call : Call τ) :
    after delay (calls ++ [call]) = (perform call (after delay calls)).1 := by
  rw [after, run_snoc, after]

/-- With one call more, the tasks that run by it follow those that have run. -/
theorem ran_snoc (call : Call τ) :
    ran delay (calls ++ [call]) = ran delay calls ++ (perform call (after delay calls)).2 := by
  rw [ran, run_snoc, ran, after]

/-- What a task that is scheduled next gets from the debouncer. -/
theorem settings_after :
    (after delay calls).now = clock calls ∧
      (after delay calls).delay = delayAfter delay calls ∧
      (after delay calls).generation = (entryAfter calls).generation ∧
      (after delay calls).notices = (entryAfter calls).notice := by
  induction calls using List.reverseRecOn with
  | nil => exact ⟨rfl, rfl, rfl, rfl⟩
  | append_singleton calls call ih =>
      obtain ⟨now, inForce, generation, notices⟩ := ih
      obtain ⟨_, _, performed⟩ := perform_fst call (after delay calls)
      obtain ⟨_, _, applied⟩ := apply_eq call (after delay calls)
      rw [after_snoc, performed, applied, now, inForce, generation, notices]
      refine ⟨?_, ?_, ?_, ?_⟩
      · rw [clock_append]
        rfl
      · rw [delayAfter, delayAfter, List.foldl_append]
        rfl
      · rw [entryAfter, entryAfter, List.countP_append, List.countP_singleton, UInt64.ofNat_add]
        split <;> simp
      · rw [entryAfter, entryAfter, List.countP_append, List.countP_singleton]
        split <;> rfl

/-- The task that a call schedules is told by the history before it. -/
theorem timer?_after (call : Call τ) :
    call.timer? (after delay calls) = timerAfter? delay calls call := by
  obtain ⟨now, inForce, generation, notices⟩ := settings_after delay calls
  cases call with
  | schedule file task =>
      rw [Call.timer?, nextTimer, deadline?, now, inForce, generation, notices]
      rfl
  | cancel file => rfl
  | setDelay delay => rfl
  | advance milliseconds => rfl

/-- The time after a call is the clock of the history with the call. -/
theorem now_apply_after (call : Call τ) :
    (call.apply (after delay calls)).now = clock (calls ++ [call]) := by
  rw [now_apply, (settings_after delay calls).1, clock_append]
  rfl

variable {delay calls} {call : Call τ} {file : Url} {timer : Timer τ}

/-- If the awaited tasks are those that wait, then those awaited once a call is made are those that
stay. -/
theorem awaited?_apply_iff
    (waits : ∀ file timer, (after delay calls).awaited? file = some timer ↔
      ∃ place, Waits delay calls place timer ∧ timer.file = file) :
    (call.apply (after delay calls)).awaited? file = some timer ↔
      ∃ place, Stays delay calls call place timer ∧ timer.file = file := by
  rw [(consistent_after delay calls).awaited?_apply, timer?_after]
  by_cases concerned : call.concerns file = true
  · rw [if_pos concerned]
    constructor
    · intro scheduled
      rw [← timer?_after] at scheduled
      have own := (concerns_iff_of_timer? scheduled).mp concerned
      exact ⟨_, .inr ⟨rfl, (timer?_after delay calls call).symm.trans scheduled⟩, own⟩
    · rintro ⟨_, ⟨_, unconcerned⟩ | ⟨_, scheduled⟩, rfl⟩
      · rw [concerned] at unconcerned
        cases unconcerned
      · exact scheduled
  · rw [if_neg concerned, waits]
    constructor
    · rintro ⟨place, waits, rfl⟩
      exact ⟨place, .inl ⟨waits, Bool.eq_false_iff.mpr concerned⟩, rfl⟩
    · rintro ⟨place, ⟨waits, _⟩ | ⟨_, scheduled⟩, rfl⟩
      · exact ⟨place, waits, rfl⟩
      · rw [← timer?_after] at scheduled
        exact (concerned ((concerns_iff_of_timer? scheduled).mpr rfl)).elim

/-- The awaited task of a file is the one that waits. -/
theorem awaited?_after_iff :
    (after delay calls).awaited? file = some timer ↔
      ∃ place, Waits delay calls place timer ∧ timer.file = file := by
  induction calls using List.reverseRecOn generalizing file timer with
  | nil =>
      constructor
      · intro impossible
        cases impossible
      · rintro ⟨place, waits, _⟩
        cases waits.scheduled
  | append_singleton calls call ih =>
      -- A task that stays waits on if it is not due, and runs otherwise.
      have consistent := (consistent_after delay calls).apply call
      have performed : (perform call (after delay calls)).1 =
          (call.apply (after delay calls)).fire.1 := rfl
      rw [after_snoc, performed, consistent.awaited?_fire, Option.filter_eq_some_iff,
        awaited?_apply_iff fun file timer => ih, now_apply_after]
      simp only [waits_snoc_iff, Bool.not_eq_true', and_right_comm, exists_and_right]

/-- The tasks that a call makes run are those whose deadline comes with it, in quiet files. -/
theorem mem_perform_iff :
    timer ∈ (perform call (after delay calls)).2 ↔
      ∃ place, Runs delay (calls ++ [call]) place timer := by
  have consistent := (consistent_after delay calls).apply call
  have performed : (perform call (after delay calls)).2 =
      (call.apply (after delay calls)).fire.2 := rfl
  have awaits : timer ∈ (call.apply (after delay calls)).awaited ↔
      (call.apply (after delay calls)).awaited? timer.file = some timer := by
    rw [consistent.awaited?_eq_some_iff, and_iff_left rfl]
  rw [performed, mem_fire_iff, awaits, awaited?_apply_iff fun _ _ => awaited?_after_iff,
    now_apply_after]
  simp only [runs_snoc_iff, and_true, exists_and_right]

/-- The tasks that have run are those whose deadline has come while their file was quiet. -/
theorem mem_ran_iff :
    timer ∈ ran delay calls ↔
      ∃ earlier place, earlier <+: calls ∧ Runs delay earlier place timer := by
  induction calls using List.reverseRecOn with
  | nil =>
      constructor
      · intro impossible
        cases impossible
      · rintro ⟨earlier, place, begins, runs⟩
        rw [List.prefix_nil.mp begins] at runs
        cases runs.scheduled
  | append_singleton calls call ih =>
      rw [ran_snoc, List.mem_append, ih, mem_perform_iff]
      constructor
      · rintro (⟨earlier, place, begins, runs⟩ | ⟨place, runs⟩)
        · exact ⟨earlier, place, begins.trans (List.prefix_append _ _), runs⟩
        · exact ⟨_, place, List.prefix_rfl, runs⟩
      · rintro ⟨earlier, place, begins, runs⟩
        rcases List.prefix_concat_iff.mp begins with rfl | before
        · exact .inr ⟨place, runs⟩
        · exact .inl ⟨earlier, place, before, runs⟩

/-- No task runs twice. -/
theorem nodup_ran (delay : UInt64) (calls : List (Call τ)) : (ran delay calls).Nodup := by
  induction calls using List.reverseRecOn with
  | nil => exact List.nodup_nil
  | append_singleton calls call ih =>
      have consistent := (consistent_after delay calls).apply call
      have once : (perform call (after delay calls)).2.Nodup :=
        ((fire_perm _).nodup_iff).mpr (consistent.nodup_awaited.filter _)
      rw [ran_snoc]
      refine List.nodup_append.mpr ⟨ih, once, fun timer before other now same => ?_⟩
      subst same
      -- A task that ran before ran in a shorter history, and a deadline comes only once.
      obtain ⟨earlier, other, begins, first⟩ := mem_ran_iff.mp before
      obtain ⟨place, second⟩ := mem_perform_iff.mp now
      have whole := second.eq_of_begins (begins.trans (List.prefix_append _ _)) first
      have shorter := begins.length_le
      rw [whole, List.length_append, List.length_singleton] at shorter
      exact Nat.not_succ_le_self _ shorter

/-- A task has run if there has been a moment at which its deadline had come and its file had been
quiet. -/
theorem mem_ran_iff_of_timerAt? {place : Nat}
    (scheduled : timerAt? delay calls place = some timer) :
    timer ∈ ran delay calls ↔
      ∃ earlier, earlier <+: calls ∧ place < earlier.length ∧ Quiet earlier place timer ∧
        isDue (clock earlier) timer = true := by
  rw [mem_ran_iff]
  constructor
  · rintro ⟨earlier, other, begins, runs⟩
    have within := lt_of_timerAt? runs.scheduled
    have same : place = other := place_eq_of_timerAt? scheduled <|
      (timerAt?_of_begins begins within).trans runs.scheduled
    subst same
    exact ⟨earlier, begins, within, runs.quiet, runs.due⟩
  · rintro ⟨earlier, begins, within, quiet, due⟩
    have same := (timerAt?_of_begins begins within).symm.trans scheduled
    obtain ⟨first, before, runs⟩ := exists_runs same quiet due
    exact ⟨first, place, before.trans begins, runs⟩

/-- A task that has been superseded or cancelled before it has run never runs. -/
theorem not_ran_of_concerned {place : Nat} (scheduled : timerAt? delay calls place = some timer)
    (waits : timer ∉ ran delay calls) (concerned : call.concerns timer.file = true)
    (later : List (Call τ)) : timer ∉ ran delay (calls ++ call :: later) := by
  have within := lt_of_timerAt? scheduled
  have scheduledLater :=
    (timerAt?_of_begins (List.prefix_append calls (call :: later)) within).trans scheduled
  have unran : ∀ earlier, earlier <+: calls → place < earlier.length →
      Quiet earlier place timer → isDue (clock earlier) timer ≠ true :=
    fun earlier begins after quiet due =>
      waits ((mem_ran_iff_of_timerAt? scheduled).mpr ⟨earlier, begins, after, quiet, due⟩)
  rw [mem_ran_iff_of_timerAt? scheduledLater]
  rintro ⟨earlier, begins, after, quiet, due⟩
  rcases List.prefix_or_prefix_of_prefix begins (List.prefix_append calls (call :: later)) with
    before | ⟨rest, rfl⟩
  · exact unran earlier before after quiet due
  · cases rest with
    | nil =>
        rw [List.append_nil] at quiet due
        exact unran calls List.prefix_rfl within quiet due
    | cons next rest =>
        have same : next = call :=
          (List.cons_prefix_cons.mp ((List.prefix_append_right_inj calls).mp begins)).1
        have follows : next ∈ (calls ++ next :: rest).drop (place + 1) := by
          rw [List.drop_append_of_le_length (Nat.succ_le_of_lt within)]
          exact List.mem_append_right _ List.mem_cons_self
        rw [← same, quiet next follows] at concerned
        cases concerned

/-- A file is pending exactly if the last task scheduled for it has neither been concerned by a
later call nor run. -/
theorem isPending_after_iff :
    (after delay calls).isPending file = true ↔
      ∃ place timer, timerAt? delay calls place = some timer ∧ timer.file = file ∧
        Quiet calls place timer ∧ timer ∉ ran delay calls := by
  rw [(consistent_after delay calls).isPending_eq, Option.isSome_iff_exists]
  simp only [awaited?_after_iff]
  constructor
  · rintro ⟨timer, place, ⟨scheduled, quiet, early⟩, own⟩
    refine ⟨place, timer, scheduled, own, quiet, fun has => ?_⟩
    obtain ⟨earlier, begins, _, _, due⟩ := (mem_ran_iff_of_timerAt? scheduled).mp has
    rw [isDue_mono (clock_le_of_begins begins) early] at due
    cases due
  · rintro ⟨place, timer, scheduled, own, quiet, waits⟩
    refine ⟨timer, place, ⟨scheduled, quiet, Bool.eq_false_iff.mpr fun due => waits ?_⟩, own⟩
    exact (mem_ran_iff_of_timerAt? scheduled).mpr
      ⟨calls, List.prefix_rfl, lt_of_timerAt? scheduled, quiet, due⟩

end Run

/-! ## Other files -/

section Alone

/-- What is known of a task besides the entry that tells it apart: its deadline, and what it does.
-/
def plan (timer : Timer τ) : Option Nat × τ :=
  (timer.deadline, timer.task)

/-- The plan of the task that is awaited for a file. -/
def plan? (debouncer : Debouncer τ) (file : Url) : Option (Option Nat × τ) :=
  (debouncer.awaited? file).map plan

/-- The plans of the tasks of a file, in order. -/
def plansOf (file : Url) (timers : List (Timer τ)) : List (Option Nat × τ) :=
  (timers.filter (·.file = file)).map plan

variable {debouncer : Debouncer τ}

/-- A call leaves a file the plan that it makes for it, unless the deadline has come. -/
theorem Consistent.plan?_perform (consistent : Consistent debouncer) (call : Call τ) (file : Url) :
    (perform call debouncer).1.plan? file =
      ((call.apply debouncer).plan? file).filter
        fun plan => !plan.1.any (· ≤ (call.apply debouncer).now) := by
  have performed : (perform call debouncer).1 = (call.apply debouncer).fire.1 := rfl
  rw [plan?, plan?, performed, (consistent.apply call).awaited?_fire, Option.filter_map]
  rfl

/-- A call carries out the plan that it makes for a file if the deadline has come. -/
theorem Consistent.plansOf_perform (consistent : Consistent debouncer) (call : Call τ)
    (file : Url) :
    plansOf file (perform call debouncer).2 =
      (((call.apply debouncer).plan? file).filter
        fun plan => plan.1.any (· ≤ (call.apply debouncer).now)).toList := by
  have performed : (perform call debouncer).2 = (call.apply debouncer).fire.2 := rfl
  rw [plansOf, plan?, performed, (consistent.apply call).fired_of_file, Option.filter_map,
    Option.toList_map]
  rfl

variable {delay : UInt64} {calls : List (Call τ)} {file : Url}

/-- After any history, no awaited task is due: it would have run. -/
theorem isDue_after_of_awaited? {timer : Timer τ}
    (awaits : (after delay calls).awaited? file = some timer) :
    isDue (after delay calls).now timer = false := by
  obtain ⟨place, waits, _⟩ := awaited?_after_iff.mp awaits
  rw [(settings_after delay calls).1]
  exact waits.early

/-- What a call plans for a file depends on the time, the delay and the file's own plan only. -/
theorem plan?_apply_congr {left right : Debouncer τ} (one : Consistent left)
    (other : Consistent right) (delay : left.delay = right.delay) (now : left.now = right.now)
    (same : left.plan? file = right.plan? file) (call : Call τ) :
    (call.apply left).plan? file = (call.apply right).plan? file := by
  rw [plan?, plan?, one.awaited?_apply, other.awaited?_apply]
  by_cases concerned : call.concerns file = true
  · rw [if_pos concerned, if_pos concerned]
    cases call <;> simp [Call.timer?, nextTimer, plan, deadline?, delay, now]
  · rw [if_neg concerned, if_neg concerned]
    exact same

/-- A call for another file passes no time and leaves the delay. -/
theorem settings_of_foreign {call : Call τ} (foreign : call.isForeign file = true) :
    call.concerns file = false ∧ call.milliseconds = 0 ∧
      ∀ delay, call.delayAfter delay = delay := by
  cases call with
  | schedule scheduled task =>
      exact ⟨decide_eq_false (of_decide_eq_true foreign), rfl, fun _ => rfl⟩
  | cancel cancelled => exact ⟨decide_eq_false (of_decide_eq_true foreign), rfl, fun _ => rfl⟩
  | setDelay delay => cases foreign
  | advance milliseconds => cases foreign

/-- A call for another file neither changes the plan of the file nor carries it out. -/
theorem plan?_perform_of_foreign {call : Call τ} (foreign : call.isForeign file = true) :
    (perform call (after delay calls)).1.plan? file = (after delay calls).plan? file ∧
      plansOf file (perform call (after delay calls)).2 = [] := by
  have consistent := consistent_after delay calls
  obtain ⟨unconcerned, still, _⟩ := settings_of_foreign foreign
  have now : (call.apply (after delay calls)).now = (after delay calls).now := by
    rw [now_apply, still, Nat.add_zero]
  have kept : (call.apply (after delay calls)).plan? file = (after delay calls).plan? file := by
    rw [plan?, plan?, consistent.awaited?_apply, unconcerned]
    rfl
  rw [consistent.plan?_perform, consistent.plansOf_perform, kept, now, plan?]
  cases awaits : (after delay calls).awaited? file with
  | none => exact ⟨rfl, rfl⟩
  | some timer =>
      have early := isDue_after_of_awaited? awaits
      rw [isDue] at early
      simp [plan, early]

/-- Without the calls for other files the same time passes. -/
theorem clock_alone (calls : List (Call τ)) (file : Url) :
    clock (calls.filter (!·.isForeign file)) = clock calls := by
  induction calls with
  | nil => rfl
  | cons call rest ih =>
      have time : clock (call :: rest) = call.milliseconds + clock rest := List.sum_cons
      rw [time, ← ih, List.filter_cons]
      cases foreign : call.isForeign file with
      | true =>
          rw [(settings_of_foreign foreign).2.1, Nat.zero_add]
          rfl
      | false => rfl

/-- Without the calls for other files the same delay is in force. -/
theorem delayAfter_alone (delay : UInt64) (calls : List (Call τ)) (file : Url) :
    delayAfter delay (calls.filter (!·.isForeign file)) = delayAfter delay calls := by
  induction calls generalizing delay with
  | nil => rfl
  | cons call rest ih =>
      have inForce : delayAfter delay (call :: rest) =
          delayAfter (call.delayAfter delay) rest := rfl
      rw [inForce, ← ih, List.filter_cons]
      cases foreign : call.isForeign file with
      | true =>
          rw [(settings_of_foreign foreign).2.2]
          rfl
      | false => rfl

/-- The plans of a file are found part by part. -/
theorem plansOf_append (file : Url) (timers later : List (Timer τ)) :
    plansOf file (timers ++ later) = plansOf file timers ++ plansOf file later := by
  rw [plansOf, plansOf, plansOf, List.filter_append, List.map_append]

/-- Calls for other files make no difference to the tasks of a file. -/
theorem plansOf_ran_alone (delay : UInt64) (calls : List (Call τ)) (file : Url) :
    (after delay (calls.filter (!·.isForeign file))).plan? file = (after delay calls).plan? file ∧
      plansOf file (ran delay (calls.filter (!·.isForeign file))) =
        plansOf file (ran delay calls) := by
  induction calls using List.reverseRecOn with
  | nil => exact ⟨rfl, rfl⟩
  | append_singleton calls call ih =>
      obtain ⟨waits, has⟩ := ih
      rw [List.filter_append, after_snoc, ran_snoc, plansOf_append, ← has]
      cases foreign : call.isForeign file with
      | true =>
          obtain ⟨kept, silent⟩ : _ ∧ plansOf file (perform call (after delay calls)).2 = [] :=
            plan?_perform_of_foreign foreign
          have none : [call].filter (!·.isForeign file) = [] := by simp [foreign]
          rw [none, List.append_nil, waits, kept, silent, List.append_nil]
          exact ⟨rfl, rfl⟩
      | false =>
          have one : [call].filter (!·.isForeign file) = [call] := by simp [foreign]
          have consistent := consistent_after delay calls
          have alone := consistent_after delay (calls.filter (!·.isForeign file))
          have inForce : (after delay (calls.filter (!·.isForeign file))).delay =
              (after delay calls).delay := by
            rw [(settings_after _ _).2.1, (settings_after _ _).2.1, delayAfter_alone]
          have time : (after delay (calls.filter (!·.isForeign file))).now =
              (after delay calls).now := by
            rw [(settings_after _ _).1, (settings_after _ _).1, clock_alone]
          have applied := plan?_apply_congr alone consistent inForce time waits call
          have moment :
              (call.apply (after delay (calls.filter (!·.isForeign file)))).now =
                (call.apply (after delay calls)).now := by
            rw [now_apply_after, now_apply_after, clock_append, clock_append, clock_alone]
          rw [one, after_snoc, ran_snoc, plansOf_append, alone.plan?_perform,
            consistent.plan?_perform, alone.plansOf_perform, consistent.plansOf_perform, applied,
            moment]
          exact ⟨rfl, rfl⟩

end Alone

/-! ## The whole of it -/

/-- For every history of calls: no task runs twice, and those that a call makes run are those whose
deadline comes with it, in files that have been quiet; without a delay that is the call that
schedules the task. The deadline of a task is the moment of scheduling plus the delay in force then,
whatever is called later. A task has run if its deadline has come while its file was quiet; if it
has been superseded or cancelled before, it never runs. A file is pending if the last task scheduled
for it has not been cancelled and has not run. What is called for other files makes no difference.
-/
theorem runs_when_quiet (delay : UInt64) (calls : List (Call τ)) :
    (ran delay calls).Nodup ∧
    (∀ call timer, timer ∈ (perform call (after delay calls)).2 ↔
      ∃ place, Runs delay (calls ++ [call]) place timer) ∧
    (∀ file task, delayAfter delay calls = 0 →
      ∃ timer ∈ (perform (.schedule file task) (after delay calls)).2,
        timerAt? delay (calls ++ [.schedule file task]) calls.length = some timer) ∧
    (∀ place timer, timerAt? delay calls place = some timer →
      (timer.deadline = deadlineAfter delay (calls.take place) ∧
        ∀ later, timerAt? delay (calls ++ later) place = some timer) ∧
      (timer ∈ ran delay calls ↔
        ∃ earlier, earlier <+: calls ∧ place < earlier.length ∧ Quiet earlier place timer ∧
          isDue (clock earlier) timer = true) ∧
      ∀ call later, timer ∉ ran delay calls → call.concerns timer.file = true →
        timer ∉ ran delay (calls ++ call :: later)) ∧
    (∀ file, (after delay calls).isPending file = true ↔
      ∃ place timer, timerAt? delay calls place = some timer ∧ timer.file = file ∧
        Quiet calls place timer ∧ timer ∉ ran delay calls) ∧
    ∀ file, let own := calls.filter (!·.isForeign file)
      plansOf file (ran delay calls) = plansOf file (ran delay own) ∧
        (after delay calls).isPending file = (after delay own).isPending file := by
  refine ⟨nodup_ran delay calls, fun call timer => mem_perform_iff, ?_, ?_,
    fun file => isPending_after_iff, ?_⟩
  · intro file task immediate
    have scheduled : timerAfter? delay calls (.schedule file task) = some _ := rfl
    refine ⟨_, mem_perform_iff.mpr ⟨calls.length, runs_snoc_iff.mpr ⟨.inr ⟨rfl, scheduled⟩, ?_⟩⟩,
      timerAt?_snoc_self.trans scheduled⟩
    have never : ¬ (0 : UInt64) = forever := by decide
    simp [isDue, deadlineAfter, immediate, never, clock_append]
  · intro place timer scheduled
    obtain ⟨_, _, deadline⟩ := call_of_timerAt? scheduled
    have within := lt_of_timerAt? scheduled
    exact ⟨⟨deadline, fun later =>
        (timerAt?_of_begins (List.prefix_append _ _) within).trans scheduled⟩,
      mem_ran_iff_of_timerAt? scheduled,
      fun call later waits concerned => not_ran_of_concerned scheduled waits concerned later⟩
  · intro file own
    obtain ⟨waits, has⟩ := plansOf_ran_alone delay calls file
    refine ⟨has.symm, ?_⟩
    rw [(consistent_after delay calls).isPending_eq, (consistent_after delay own).isPending_eq,
      ← Option.isSome_map (f := plan), ← Option.isSome_map (f := plan)]
    exact congrArg Option.isSome waits.symm

end IssueRelay.Debouncer
