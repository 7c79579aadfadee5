/-!
# Transitions

What happens to a state, and what that brings about outside of it, in order. Transitions are
composed one after the other; the effects of the first come first.
-/

namespace IssueRelay

/-- A change of a state together with its effects. -/
abbrev Transition (σ ε : Type) :=
  σ → σ × List ε

namespace Transition

variable {σ ε : Type}

/-- Nothing happens. -/
def idle : Transition σ ε :=
  fun state => (state, [])

/-- A change without effects. -/
def change (update : σ → σ) : Transition σ ε :=
  fun state => (update state, [])

/-- Effects without a change. -/
def emit (effects : List ε) : Transition σ ε :=
  fun state => (state, effects)

/-- One transition after the other. -/
def andThen (first second : Transition σ ε) : Transition σ ε := fun state =>
  let (middle, before) := first state
  let (last, after) := second middle
  (last, before ++ after)

/-- A transition chosen by the state it starts from. -/
def inspect (choose : σ → Transition σ ε) : Transition σ ε :=
  fun state => choose state state

/-- A transition for every item of a list, in order. -/
def each {α : Type} (step : α → Transition σ ε) : List α → Transition σ ε
  | [] => idle
  | item :: rest => (step item).andThen (each step rest)

/-- A transition of a part of a larger state. -/
def within {τ : Type} (part : τ → σ) (replace : τ → σ → τ) (step : Transition σ ε) :
    Transition τ ε := fun whole =>
  let (changed, effects) := step (part whole)
  (replace whole changed, effects)

@[simp] theorem idle_apply (state : σ) : (idle : Transition σ ε) state = (state, []) := rfl

@[simp] theorem change_apply (update : σ → σ) (state : σ) :
    (change update : Transition σ ε) state = (update state, []) := rfl

@[simp] theorem emit_apply (effects : List ε) (state : σ) :
    emit effects state = (state, effects) := rfl

@[simp] theorem inspect_apply (choose : σ → Transition σ ε) (state : σ) :
    inspect choose state = choose state state := rfl

/-- Two transitions in a row: the second starts from what the first leaves, and the effects of the
first come first. -/
theorem andThen_apply (first second : Transition σ ε) (state : σ) :
    first.andThen second state =
      ((second (first state).1).1, (first state).2 ++ (second (first state).1).2) := rfl

@[simp] theorem idle_andThen (step : Transition σ ε) : idle.andThen step = step := rfl

/-- Doing nothing afterwards changes nothing. -/
@[simp] theorem andThen_idle (step : Transition σ ε) : step.andThen idle = step := by
  funext state
  simp [andThen]

/-- Three transitions in a row can be taken together in either way. -/
theorem andThen_assoc (first second third : Transition σ ε) :
    (first.andThen second).andThen third = first.andThen (second.andThen third) := by
  funext state
  simp [andThen]

@[simp] theorem each_nil {α : Type} (step : α → Transition σ ε) : each step [] = idle := rfl

@[simp] theorem each_cons {α : Type} (step : α → Transition σ ε) (item : α) (rest : List α) :
    each step (item :: rest) = (step item).andThen (each step rest) := rfl

/-- The transitions for two lists in a row are those for the first and then those for the second. -/
theorem each_append {α : Type} (step : α → Transition σ ε) (left right : List α) :
    each step (left ++ right) = (each step left).andThen (each step right) := by
  induction left with
  | nil => rfl
  | cons item rest ih => simp [ih, andThen_assoc]

end Transition
end IssueRelay
