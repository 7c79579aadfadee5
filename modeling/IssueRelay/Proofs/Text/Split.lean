import Mathlib.Data.List.Basic

/-!
# Splitting at a separator

No piece of a list that was split holds the separator. A list that is written item by item can be
split before or after, if exactly one item is written with the separator, and as nothing else.
-/

namespace IssueRelay.Split

variable {α β : Type} [DecidableEq α] [DecidableEq β]

/-- No piece holds the separator. -/
theorem not_mem_of_mem_splitOn {separator : α} {list piece : List α}
    (member : piece ∈ list.splitOn separator) : separator ∉ piece := by
  induction list generalizing piece with
  | nil =>
      rw [List.splitOn_nil, List.mem_singleton] at member
      rw [member]
      exact List.not_mem_nil
  | cons item rest ih =>
      rw [List.splitOn_cons_eq_if_modifyHead] at member
      split at member
      · rcases List.mem_cons.mp member with rfl | later
        · exact List.not_mem_nil
        · exact ih later
      · rename_i different
        obtain ⟨first, others, cut⟩ :=
          List.exists_cons_of_ne_nil (List.splitOn_ne_nil separator rest)
        rw [cut, List.modifyHead_cons] at member
        rcases List.mem_cons.mp member with rfl | later
        · have separate : separator ≠ item := fun same => different (beq_iff_eq.mpr same.symm)
          exact List.not_mem_cons_of_ne_of_not_mem separate (ih (cut ▸ List.mem_cons_self))
        · exact ih (cut ▸ List.mem_cons_of_mem _ later)

/-- A separator at the head of a list cuts off an empty piece. -/
theorem nil_mem_splitOn_of_head? {separator : α} {list : List α}
    (first : list.head? = some separator) : [] ∈ list.splitOn separator := by
  obtain ⟨rest, rfl⟩ := List.head?_eq_some_iff.mp first
  rw [List.splitOn_cons_eq_if_modifyHead, if_pos (beq_self_eq_true separator)]
  exact List.mem_cons_self

/-- A separator at the end of a list cuts off an empty piece. -/
theorem nil_mem_splitOn_of_getLast? {separator : α} {list : List α}
    (last : list.getLast? = some separator) : [] ∈ list.splitOn separator := by
  obtain ⟨front, rfl⟩ := List.getLast?_eq_some_iff.mp last
  rw [List.splitOn_append_cons_self, List.splitOn_nil]
  exact List.mem_append_right _ List.mem_cons_self

/-- What stands before the first separator belongs to the first piece. -/
theorem splitOn_append_of_not_mem {separator : α} {left : List α} (absent : separator ∉ left)
    (right : List α) :
    (left ++ right).splitOn separator = (right.splitOn separator).modifyHead (left ++ ·) := by
  induction left with
  | nil => exact (congrFun List.modifyHead_id _).symm
  | cons item rest ih =>
      have different := List.ne_of_not_mem_cons absent
      have others := List.not_mem_of_not_mem_cons absent
      rw [List.cons_append, List.splitOn_cons_eq_if_modifyHead,
        if_neg fun same => different (beq_iff_eq.mp same).symm, ih others,
        List.modifyHead_modifyHead]
      rfl

/-- Writing item by item and splitting can be exchanged. -/
theorem splitOn_flatMap {write : α → List β} {separator : α} {written : β}
    (alone : write separator = [written]) (absent : ∀ item, item ≠ separator → written ∉ write item)
    (list : List α) :
    (list.flatMap write).splitOn written =
      (list.splitOn separator).map fun piece => piece.flatMap write := by
  induction list with
  | nil => simp
  | cons item rest ih =>
      rw [List.flatMap_cons, List.splitOn_cons_eq_if_modifyHead]
      by_cases same : item = separator
      · rw [if_pos (beq_iff_eq.mpr same), same, alone, List.singleton_append,
          List.splitOn_cons_eq_if_modifyHead, if_pos (beq_self_eq_true _), ih]
        rfl
      · rw [if_neg fun equal => same (beq_iff_eq.mp equal),
          splitOn_append_of_not_mem (absent item same), ih]
        cases rest.splitOn separator <;> rfl

end IssueRelay.Split
