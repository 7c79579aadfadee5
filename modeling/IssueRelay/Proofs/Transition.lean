import IssueRelay.Transition

/-!
# What transitions ensure

A condition speaks of a state and of all that has been brought about so far. A transition ensures
one condition from another; what every part of it preserves is preserved by the whole. A relation
speaks of the states of two runs, and is kept when transitions match part by part.
-/

namespace IssueRelay.Transition

variable {σ ε α : Type} {before middle after invariant : σ → List ε → Prop}

/-- Whether one condition holds after a transition if another holds before, whatever has been
brought about until then. -/
def Ensures (before after : σ → List ε → Prop) (step : Transition σ ε) : Prop :=
  ∀ state past, before state past → after (step state).1 (past ++ (step state).2)

/-- Whether a transition keeps a condition. -/
abbrev Preserves (invariant : σ → List ε → Prop) (step : Transition σ ε) : Prop :=
  Ensures invariant invariant step

/-- Doing nothing keeps every condition. -/
theorem preserves_idle : Preserves invariant idle := by
  intro state past holds
  rw [idle_apply, List.append_nil]
  exact holds

/-- What the first of two transitions ensures is what the second may start from. -/
theorem Ensures.andThen {first second : Transition σ ε} (one : Ensures before middle first)
    (other : Ensures middle after second) : Ensures before after (first.andThen second) := by
  intro state past holds
  have result := other _ _ (one state past holds)
  rw [List.append_assoc] at result
  exact result

/-- A transition chosen by the state ensures what each of the choices does. -/
theorem ensures_inspect {choose : σ → Transition σ ε}
    (chosen : ∀ state, Ensures before after (choose state)) :
    Ensures before after (inspect choose) :=
  fun state past holds => chosen state state past holds

/-- A condition that every item keeps is kept by all of them in a row. -/
theorem preserves_each {step : α → Transition σ ε} {items : List α}
    (keeps : ∀ item ∈ items, Preserves invariant (step item)) :
    Preserves invariant (each step items) := by
  induction items with
  | nil => exact preserves_idle
  | cons item rest ih =>
      apply Ensures.andThen
      · exact keeps item List.mem_cons_self
      · exact ih fun other member => keeps other (List.mem_cons_of_mem item member)

/-- The transitions for the images of items are those for the items, with the function applied
first. -/
theorem each_map {β : Type} (step : β → Transition σ ε) (f : α → β) (items : List α) :
    each step (items.map f) = each (fun item => step (f item)) items := by
  induction items with
  | nil => rfl
  | cons item rest ih => rw [List.map_cons, each_cons, each_cons, ih]

/-! ## Two runs -/

section Matches

variable {related : σ → σ → Prop} {counts : ε → Bool}

/-- Whether two transitions lead from related states to related states, and bring about the same of
what counts. -/
def Matches (related : σ → σ → Prop) (counts : ε → Bool) (step other : Transition σ ε) : Prop :=
  ∀ left right, related left right →
    related (step left).1 (other right).1 ∧
      (step left).2.filter counts = (other right).2.filter counts

/-- Doing nothing on both sides keeps every relation. -/
theorem matches_idle : Matches related counts idle idle :=
  fun _ _ start => ⟨start, rfl⟩

/-- Changes match if they lead from related states to related ones. -/
theorem matches_change {update other : σ → σ}
    (keeps : ∀ left right, related left right → related (update left) (other right)) :
    Matches related counts (change update) (change other) :=
  fun left right start => ⟨keeps left right start, rfl⟩

/-- Effects match if they agree in what counts. -/
theorem matches_emit {effects others : List ε}
    (same : effects.filter counts = others.filter counts) :
    Matches related counts (emit effects) (emit others) :=
  fun _ _ start => ⟨start, same⟩

/-- Transitions in a row match if each of them does. -/
theorem Matches.andThen {first second one other : Transition σ ε}
    (before : Matches related counts first one) (after : Matches related counts second other) :
    Matches related counts (first.andThen second) (one.andThen other) := by
  intro left right start
  obtain ⟨middle, told⟩ := before left right start
  obtain ⟨last, toldLater⟩ := after _ _ middle
  refine ⟨last, ?_⟩
  rw [andThen_apply, andThen_apply, List.filter_append, List.filter_append, told, toldLater]

/-- Transitions chosen by related states match if the choices do. -/
theorem matches_inspect {choose other : σ → Transition σ ε}
    (chosen : ∀ left right, related left right →
      Matches related counts (choose left) (other right)) :
    Matches related counts (inspect choose) (inspect other) :=
  fun left right start => chosen left right start left right start

/-- The transitions for a list match if those for every item do. -/
theorem matches_each {step : α → Transition σ ε} {items : List α}
    (each_matches : ∀ item ∈ items, Matches related counts (step item) (step item)) :
    Matches related counts (each step items) (each step items) := by
  induction items with
  | nil => exact matches_idle
  | cons item rest ih =>
      apply Matches.andThen
      · exact each_matches item List.mem_cons_self
      · exact ih fun other member => each_matches other (List.mem_cons_of_mem item member)

end Matches

end IssueRelay.Transition
