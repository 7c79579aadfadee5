import IssueRelay.Files.Path
import IssueRelay.Proofs.Text.Utf8
import Mathlib.Data.List.TakeWhile

/-!
# The steps of a path

A rooted path leads from the root along the pieces between its slashes that count for something. So
its components do not depend on how it is spelled: slashes may be repeated or stand at the end, and
pieces of one dot may stand anywhere (`IssueRelay.FilePath.components_insert_void`). Steps joined by
slashes are read back (`IssueRelay.FilePath.steps_intercalate`), also from the text that they spell
if it is well-formed.
-/

namespace IssueRelay.FilePath

/-! ## Components as steps from the root -/

/-- The steps that the pieces between slashes stand for. -/
def steps (octets : Octets) : List Component :=
  (octets.splitOn slash).filterMap stepOf?

/-- The empty path has no steps. -/
@[simp] theorem steps_nil : steps [] = [] := by
  rw [steps, List.splitOn_nil]
  rfl

/-- A slash parts the steps before it from those after it. -/
theorem steps_append (left right : Octets) :
    steps (left ++ slash :: right) = steps left ++ steps right := by
  rw [steps, List.splitOn_append_cons_self, List.filterMap_append]
  rfl

/-- A slash in front adds no step. -/
theorem steps_cons (octets : Octets) : steps (slash :: octets) = steps octets :=
  (steps_append [] octets).trans (by rw [steps_nil, List.nil_append])

/-- A piece that counts for nothing makes no step. -/
theorem steps_of_isVoid {piece : Octets} (void : isVoid piece = true) : steps piece = [] := by
  have absent : slash ∉ piece := by
    simp only [isVoid, Bool.or_eq_true, decide_eq_true_eq] at void
    rcases void with rfl | rfl <;> decide
  rw [steps, List.splitOn_eq_singleton absent, List.filterMap_cons, stepOf?, if_pos void]
  rfl

/-- The components of a rooted path are the root and its steps. -/
theorem components_of_rooted {path : FilePath} (rooted : path.isRooted = true) :
    path.components = .root :: steps path.octets := by
  obtain ⟨octets⟩ := path
  cases octets with
  | nil => cases rooted
  | cons first rest =>
      have slashed : first = slash := by simpa [isRooted] using rooted
      subst slashed
      rw [components, if_pos rooted, pieces, front, if_pos rooted, steps_cons]
      rfl

/-! ## Spellings -/

/-- Slashes may be repeated, and pieces of one dot may stand between them. -/
theorem components_insert_void {left right piece : Octets} (void : isVoid piece = true)
    (rooted : isRooted ⟨left ++ slash :: right⟩ = true) :
    components ⟨left ++ slash :: (piece ++ slash :: right)⟩ =
      components ⟨left ++ slash :: right⟩ := by
  have still : isRooted ⟨left ++ slash :: (piece ++ slash :: right)⟩ = true := by
    cases left with
    | nil => rfl
    | cons => exact rooted
  rw [components_of_rooted still, components_of_rooted rooted, steps_append, steps_append,
    steps_append, steps_of_isVoid void, List.nil_append]

/-- A slash may stand at the end, and a dot after it. -/
theorem components_append_void {octets piece : Octets} (void : isVoid piece = true)
    (rooted : isRooted ⟨octets⟩ = true) :
    components ⟨octets ++ slash :: piece⟩ = components ⟨octets⟩ := by
  have still : isRooted ⟨octets ++ slash :: piece⟩ = true := by
    cases octets with
    | nil => cases rooted
    | cons => exact rooted
  rw [components_of_rooted still, components_of_rooted rooted, steps_append,
    steps_of_isVoid void, List.append_nil]

/-- The steps below a directory are those that its own lack. -/
theorem below?_eq_some_iff {path directory : FilePath} {rest : List Component} :
    path.below? directory = some rest ↔ path.components = directory.components ++ rest := by
  rw [below?]
  constructor
  · intro found
    split_ifs at found with begins
    obtain ⟨others, whole⟩ := List.isPrefixOf_iff_prefix.mp begins
    rw [← whole, List.drop_left] at found
    rw [← whole, Option.some.inj found]
  · intro whole
    rw [whole, if_pos (List.isPrefixOf_iff_prefix.mpr (List.prefix_append _ _)), List.drop_left]

/-! ## Steps and their octets -/

/-- The octets that a component is spelled with. -/
def Component.octets : Component → Octets
  | .root => [slash]
  | .here => dot
  | .above => [0x2E, 0x2E]
  | .name octets => octets

/-- Whether a component is a step down or up: its octets are one piece, which stands for it. -/
def Component.IsStep (component : Component) : Prop :=
  slash ∉ component.octets ∧ stepOf? component.octets = some component

/-- The step that a piece stands for is spelled with its octets. -/
theorem octets_of_stepOf? {piece : Octets} {component : Component}
    (stands : stepOf? piece = some component) : component.octets = piece := by
  rw [stepOf?] at stands
  split_ifs at stands with _ above
  · cases stands
    exact above.symm
  · cases stands
    rfl

/-- The octets of a step are a piece of the path. -/
theorem octets_mem_of_mem_steps {octets : Octets} {component : Component}
    (member : component ∈ steps octets) : component.octets ∈ octets.splitOn slash := by
  obtain ⟨piece, listed, stands⟩ := List.mem_filterMap.mp member
  rwa [octets_of_stepOf? stands]

/-- Every step among those of a path is one piece. -/
theorem isStep_of_mem_steps {octets : Octets} {component : Component}
    (member : component ∈ steps octets) : component.IsStep := by
  obtain ⟨piece, listed, stands⟩ := List.mem_filterMap.mp member
  rw [Component.IsStep, octets_of_stepOf? stands]
  exact ⟨Split.not_mem_of_mem_splitOn listed, stands⟩

namespace Component.IsStep

variable {component : Component} (isStep : component.IsStep)

include isStep

/-- A step is not spelled with nothing. -/
theorem octets_ne_nil : component.octets ≠ [] := by
  intro empty
  have stands := isStep.2
  rw [empty] at stands
  cases stands

/-- A step is not spelled with a single dot. -/
theorem octets_ne_dot : component.octets ≠ dot := by
  intro here
  have stands := isStep.2
  rw [here] at stands
  cases stands

/-- The text of a component is its octets, decoded. -/
theorem text_eq : component.text = Utf8.decodeLossy component.octets := by
  cases component with
  | root => exact absurd List.mem_cons_self isStep.1
  | here => exact absurd rfl isStep.octets_ne_dot
  | above => exact (Utf8.decodeLossy_encode "..").symm
  | name octets => rfl

/-- The text of a step is not empty. -/
theorem text_ne_empty : component.text ≠ "" := by
  rw [isStep.text_eq]
  exact Utf8.decodeLossy_ne_empty isStep.octets_ne_nil

/-- The text of a step holds no slash, even if its octets are ill-formed. -/
theorem slash_not_mem_text : '/' ∉ component.text.toList := by
  rw [isStep.text_eq]
  exact fun member => isStep.1 (Utf8.mem_of_mem_decodeLossy (by decide) (by decide) member)

end Component.IsStep

/-- Steps joined by slashes are read back. -/
theorem steps_intercalate {list : List Component} (areSteps : ∀ step ∈ list, step.IsStep) :
    steps ([slash].intercalate (list.map Component.octets)) = list := by
  cases list with
  | nil => simp
  | cons first rest =>
      rw [steps, List.splitOn_intercalate]
      · rw [List.filterMap_map]
        exact (List.filterMap_congr fun step member => (areSteps step member).2).trans
          List.filterMap_some
      · intro piece member
        obtain ⟨step, listed, rfl⟩ := List.mem_map.mp member
        exact (areSteps step listed).1
      · simp

/-! ## Steps and their texts -/

/-- The text of steps, with slashes between them. -/
def joined (list : List Component) : String :=
  "/".intercalate (list.map Component.text)

/-- Split at its slashes, the text of steps is the texts of the steps. -/
theorem splitOn_joined {list : List Component} (areSteps : ∀ step ∈ list, step.IsStep)
    (present : list ≠ []) :
    (joined list).toList.splitOn '/' = list.map fun step => step.text.toList := by
  rw [joined, String.toList_intercalate, List.map_map]
  refine List.splitOn_intercalate '/' ?_ (by simpa using present)
  intro piece member
  obtain ⟨step, listed, rfl⟩ := List.mem_map.mp member
  exact (areSteps step listed).slash_not_mem_text

/-- The octets of well-formed steps are those of their text. -/
theorem encode_joined {list : List Component}
    (wellFormed : ∀ step ∈ list, Utf8.encode step.text = step.octets) :
    Utf8.encode (joined list) = [slash].intercalate (list.map Component.octets) := by
  induction list with
  | nil => rfl
  | cons first rest ih =>
      have own := wellFormed first List.mem_cons_self
      have others := ih fun step member => wellFormed step (List.mem_cons_of_mem _ member)
      cases rest with
      | nil => simp [joined, own]
      | cons next rest =>
          simp only [joined, List.map_cons] at others ⊢
          rw [String.intercalate_cons_cons, Utf8.encode_append, Utf8.encode_append, own, others,
            List.intercalate_cons_cons]
          rfl

/-- A path that begins with something other than a slash is relative. -/
theorem isRooted_of_begins {octets : Octets} (present : octets.takeWhile (· ≠ slash) ≠ []) :
    isRooted ⟨octets⟩ = false := by
  cases octets with
  | nil => rfl
  | cons octet rest =>
      have different : octet ≠ slash := by
        rintro rfl
        exact present rfl
      simp [isRooted, different]

/-- A path that begins with a piece that counts for something is its steps. -/
theorem components_of_begins {octets : Octets} (present : octets.takeWhile (· ≠ slash) ≠ [])
    (noDot : octets.takeWhile (· ≠ slash) ≠ dot) : components ⟨octets⟩ = steps octets := by
  have unrooted := isRooted_of_begins present
  have front : front ⟨octets⟩ = [] := by
    rw [FilePath.front, unrooted, if_neg Bool.false_ne_true, if_neg noDot]
  rw [components, unrooted, if_neg Bool.false_ne_true, front, if_neg (by decide), pieces, front]
  rfl

/-- Pieces joined by slashes begin with the first. -/
theorem takeWhile_intercalate_cons {first : Octets} (absent : slash ∉ first)
    (rest : List Octets) :
    ([slash].intercalate (first :: rest)).takeWhile (· ≠ slash) = first := by
  have whole : ∀ octet ∈ first, decide (octet ≠ slash) = true :=
    fun octet member => decide_eq_true fun same => absent (same ▸ member)
  cases rest with
  | nil =>
      rw [List.intercalate_singleton]
      exact List.takeWhile_eq_self_iff.mpr whole
  | cons next others =>
      rw [List.intercalate_cons_cons, List.append_assoc, List.takeWhile_append_of_pos whole]
      exact List.append_nil _

/-- The text of well-formed steps is a path with these steps. -/
theorem components_ofText_joined {list : List Component} (areSteps : ∀ step ∈ list, step.IsStep)
    (wellFormed : ∀ step ∈ list, Utf8.encode step.text = step.octets) :
    (ofText (joined list)).components = list := by
  rw [ofText, encode_joined wellFormed]
  cases list with
  | nil => decide +kernel
  | cons first rest =>
      have isStep := areSteps first List.mem_cons_self
      have begins : ([slash].intercalate ((first :: rest).map Component.octets)).takeWhile
          (· ≠ slash) = first.octets :=
        takeWhile_intercalate_cons isStep.1 _
      rw [components_of_begins (begins ▸ isStep.octets_ne_nil) (begins ▸ isStep.octets_ne_dot)]
      exact steps_intercalate areSteps

/-- All steps of a path that spells a text are well-formed. -/
theorem encode_text_of_mem_steps {text : String} {step : Component}
    (member : step ∈ steps (Utf8.encode text)) : Utf8.encode step.text = step.octets := by
  have listed := octets_mem_of_mem_steps member
  have ascii : '/'.toNat < 0x80 := by decide
  have slashes : (Utf8.encode text).splitOn slash =
      (text.toList.splitOn '/').map fun piece => Utf8.encode (String.ofList piece) :=
    Utf8.splitOn_encode ascii text
  rw [slashes] at listed
  obtain ⟨piece, _, octets⟩ := List.mem_map.mp listed
  rw [(isStep_of_mem_steps member).text_eq, ← octets, Utf8.decodeLossy_encode]

end IssueRelay.FilePath
