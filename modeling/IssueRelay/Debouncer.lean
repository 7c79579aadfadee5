import IssueRelay.Dictionary
import IssueRelay.Url.Basic

/-!
# Debouncing

Tasks that wait until their file has been quiet for a while. Every task sleeps on its own, until its
deadline or until it is given notice, and an entry for each file says which task is the newest one.
A task scheduled for a file takes the place of one that still waits for it; its deadline is the
moment of scheduling plus the delay in force at that moment, and a later change of the delay does
not move it. Time is counted in milliseconds and stands still unless it is advanced.
-/

namespace IssueRelay

/-- What tells a task from other tasks: its generation, a number that wraps around, and the notice
that ends it, which no other task shares. -/
structure Pending where
  generation : UInt64
  notice : Nat
  deriving DecidableEq, Repr

/-- A task that sleeps until its deadline; without a deadline it sleeps forever. A task that has
been given notice does not run any more. -/
structure Timer (τ : Type) where
  file : Url
  entry : Pending
  deadline : Option Nat
  task : τ
  notified : Bool

/-- The sleeping tasks, in the order they were scheduled, the entry of the newest one of each file,
and what the next one gets: the delay, a generation and a notice. -/
structure Debouncer (τ : Type) where
  delay : UInt64
  now : Nat
  generation : UInt64
  notices : Nat
  pending : Dictionary Url Pending
  sleeping : List (Timer τ)

namespace Debouncer

variable {τ : Type}

/-- The delay in force until one is set. -/
def standardDelay : UInt64 :=
  150

/-- No waiting tasks. -/
def withDelay (delay : UInt64) : Debouncer τ where
  delay := delay
  now := 0
  generation := 0
  notices := 0
  pending := .empty
  sleeping := []

/-- The delay that never elapses. -/
def forever : UInt64 :=
  18446744073709551615

/-- The deadline of a task scheduled now. -/
def deadline? (debouncer : Debouncer τ) : Option Nat :=
  if debouncer.delay = forever then none else some (debouncer.now + debouncer.delay.toNat)

/-- The delay for tasks scheduled from now on. -/
def setDelay (debouncer : Debouncer τ) (delay : UInt64) : Debouncer τ :=
  { debouncer with delay }

/-- Gives a task notice. -/
def notify (debouncer : Debouncer τ) (notice : Nat) : Debouncer τ :=
  { debouncer with
    sleeping := debouncer.sleeping.map fun timer =>
      if timer.entry.notice = notice then { timer with notified := true } else timer }

/-- Takes out the entry of a file and gives its task notice. -/
def cancel (debouncer : Debouncer τ) (file : Url) : Debouncer τ :=
  match debouncer.pending.get? file with
  | some entry => { debouncer with pending := debouncer.pending.erase file }.notify entry.notice
  | none => debouncer

/-- Whether a task waits for a file. -/
def isPending (debouncer : Debouncer τ) (file : Url) : Bool :=
  debouncer.pending.contains file

/-- Puts in the entry of a file. The task of one that is there already is superseded. -/
def register (debouncer : Debouncer τ) (file : Url) (entry : Pending) : Debouncer τ :=
  let registered := { debouncer with pending := debouncer.pending.insert file entry }
  match debouncer.pending.get? file with
  | some previous => registered.notify previous.notice
  | none => registered

/-- Makes a task wait for a file, in the place of any other. -/
def schedule (debouncer : Debouncer τ) (file : Url) (task : τ) : Debouncer τ :=
  let entry := { generation := debouncer.generation, notice := debouncer.notices }
  let registered := debouncer.register file entry
  { registered with
    generation := debouncer.generation + 1
    notices := debouncer.notices + 1
    sleeping := registered.sleeping ++
      [{ file, entry, deadline := debouncer.deadline?, task, notified := false }] }

/-- Whether the deadline of a task has come. -/
def isDue (now : Nat) (timer : Timer τ) : Bool :=
  timer.deadline.any (· ≤ now)

/-- The sleeping tasks that have not been given notice. -/
def awaited (debouncer : Debouncer τ) : List (Timer τ) :=
  debouncer.sleeping.filter (!·.notified)

/-- A task wakes up to run: it takes out the entry of its file, unless that is one of another
generation. -/
def wake (debouncer : Debouncer τ) (timer : Timer τ) : Debouncer τ :=
  if (debouncer.pending.get? timer.file).any (·.generation = timer.entry.generation) then
    { debouncer with pending := debouncer.pending.erase timer.file }
  else debouncer

/-- The tasks that run, which are those whose deadline has come, the earliest deadline first, and
the debouncer without them. Those that have been given notice end without running. -/
def fire (debouncer : Debouncer τ) : Debouncer τ × List (Timer τ) :=
  let (due, sleeping) := debouncer.awaited.partition (isDue debouncer.now)
  let due := due.mergeSort fun left right => left.deadline.getD 0 ≤ right.deadline.getD 0
  (due.foldl wake { debouncer with sleeping }, due)

/-- Lets time pass. -/
def advance (debouncer : Debouncer τ) (milliseconds : Nat) : Debouncer τ :=
  { debouncer with now := debouncer.now + milliseconds }

/-- Giving notice leaves the entries. -/
@[simp] theorem pending_notify (debouncer : Debouncer τ) (notice : Nat) :
    (debouncer.notify notice).pending = debouncer.pending := rfl

/-- No task waits for a file whose task has been taken out. -/
@[simp] theorem isPending_cancel_self (debouncer : Debouncer τ) (file : Url) :
    (debouncer.cancel file).isPending file = false := by
  unfold cancel isPending Dictionary.contains
  split <;> simp [*]

/-- Taking out the task of a file leaves other files as they are. -/
theorem isPending_cancel_of_ne (debouncer : Debouncer τ) {file other : Url}
    (different : other ≠ file) :
    (debouncer.cancel file).isPending other = debouncer.isPending other := by
  unfold cancel isPending Dictionary.contains
  split <;> simp [Dictionary.get?_erase_of_ne _ different]

/-- Registering a task changes the entry of its file only. -/
@[simp] theorem pending_register (debouncer : Debouncer τ) (file : Url) (entry : Pending) :
    (debouncer.register file entry).pending = debouncer.pending.insert file entry := by
  unfold register
  split <;> rfl

/-- A scheduled task waits for its file. -/
@[simp] theorem isPending_schedule_self (debouncer : Debouncer τ) (file : Url) (task : τ) :
    (debouncer.schedule file task).isPending file = true := by
  simp [isPending, schedule, Dictionary.contains]

/-- Scheduling a task leaves other files as they are. -/
theorem isPending_schedule_of_ne (debouncer : Debouncer τ) {file other : Url} (task : τ)
    (different : other ≠ file) :
    (debouncer.schedule file task).isPending other = debouncer.isPending other := by
  simp [isPending, schedule, Dictionary.contains, Dictionary.get?_insert_of_ne _ _ different]

/-- A change of the delay moves no deadline. -/
@[simp] theorem sleeping_setDelay (debouncer : Debouncer τ) (delay : UInt64) :
    (debouncer.setDelay delay).sleeping = debouncer.sleeping := rfl

end Debouncer
end IssueRelay
