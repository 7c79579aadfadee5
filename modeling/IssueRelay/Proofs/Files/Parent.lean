import IssueRelay.Proofs.Files.Components
import Mathlib.Data.List.DropRight

/-!
# Going up

The parent of a path is spelled by a beginning of its text and has its components but the last
(`IssueRelay.FilePath.isParent_of_parent?`); only the root and the empty path have none. So going up
ends, and what holds of every path without a parent and of each path whose parent it holds of, holds
of all paths (`IssueRelay.FilePath.upward_induction`). A path that is joined to a directory has the
components of the directory and then its own.
-/

namespace IssueRelay.FilePath

variable {path above : FilePath}

/-! ## The front of a path and its pieces -/

/-- The component that the front of a path stands for, if there is one. -/
def leading (path : FilePath) : List Component :=
  if path.isRooted then [.root] else if path.front = dot then [.here] else []

/-- The components of a path are that of its front and those of its pieces. -/
theorem components_eq (path : FilePath) :
    path.components = path.leading ++ path.pieces.filterMap stepOf? :=
  rfl

/-- The path with a given front and given pieces. -/
def ofPieces (front : Octets) (pieces : List Octets) : FilePath :=
  ⟨front ++ [slash].intercalate pieces⟩

/-- A path begins with its front. -/
theorem front_begins (path : FilePath) : path.front <+: path.octets := by
  obtain ⟨octets⟩ := path
  rw [front]
  split
  case isTrue rooted =>
    cases octets with
    | nil => cases rooted
    | cons first rest =>
        have slashed : first = slash := by simpa [isRooted] using rooted
        exact ⟨rest, by rw [slashed]; rfl⟩
  case isFalse =>
    split
    case isTrue here =>
      rw [← here]
      exact List.takeWhile_prefix _
    case isFalse => exact List.nil_prefix

/-- A path is made of its front and its pieces. -/
theorem ofPieces_front_pieces (path : FilePath) : ofPieces path.front path.pieces = path := by
  obtain ⟨rest, whole⟩ := path.front_begins
  rw [ofPieces, pieces, ← whole, List.drop_left, List.intercalate_splitOn, whole]

/-- No piece holds a slash. -/
theorem not_mem_of_mem_pieces {piece : Octets} (member : piece ∈ path.pieces) : slash ∉ piece :=
  Split.not_mem_of_mem_splitOn member

/-- What pieces spell begins with what the first of them spell. -/
theorem intercalate_begins {kept whole : List Octets} (begins : kept <+: whole) :
    [slash].intercalate kept <+: [slash].intercalate whole := by
  obtain ⟨rest, rfl⟩ := begins
  cases rest with
  | nil => simp only [List.append_nil, List.prefix_rfl]
  | cons next rest =>
      induction kept with
      | nil => exact List.nil_prefix
      | cons first kept ih =>
          cases kept with
          | nil =>
              rw [List.intercalate_singleton, List.cons_append, List.nil_append,
                List.intercalate_cons_cons, List.append_assoc]
              exact List.prefix_append _ _
          | cons second kept =>
              rw [List.cons_append, List.cons_append, List.intercalate_cons_cons,
                List.intercalate_cons_cons]
              exact List.prefix_append_right_inj _ |>.mpr ih

/-- A path is absolute exactly if its front is the slash of the root. -/
theorem isRooted_iff : path.isRooted = true ↔ path.front = [slash] := by
  rw [front]
  constructor
  · exact fun rooted => if_pos rooted
  · intro same
    by_contra unrooted
    rw [if_neg unrooted] at same
    split_ifs at same with here
    exact absurd same (by decide)

/-- A path has one of three fronts. -/
theorem front_cases (path : FilePath) :
    path.front = [slash] ∨ path.front = dot ∨ path.front = [] := by
  rw [front]
  split_ifs <;> simp

/-- The dot is spelled without a slash. -/
theorem dot_ne_slash : ∀ octet ∈ dot, decide (octet ≠ slash) = true := by
  simp [dot, slash]

/-- The pieces after a dot in front begin after a slash. -/
theorem takeWhile_drop_of_here (here : path.front = dot) :
    (path.octets.drop path.front.length).takeWhile (· ≠ slash) = [] := by
  have first : path.octets.takeWhile (· ≠ slash) = dot := by
    by_contra other
    rw [front, if_neg other] at here
    split_ifs at here
    · exact absurd here (by decide)
    · exact absurd here (by decide)
  obtain ⟨rest, whole⟩ := path.front_begins
  rw [here] at whole
  rw [← whole, here, List.drop_left]
  rw [← whole, List.takeWhile_append_of_pos dot_ne_slash] at first
  exact List.append_right_eq_self.mp first

/-- Where nothing stands before the first slash, nothing stands before it in a beginning either. -/
theorem takeWhile_eq_nil_of_begins {octets whole : Octets} (begins : octets <+: whole)
    (empty : whole.takeWhile (· ≠ slash) = []) : octets.takeWhile (· ≠ slash) = [] := by
  obtain ⟨rest, rfl⟩ := begins
  cases octets with
  | nil => rfl
  | cons first others =>
      rw [List.cons_append, List.takeWhile_cons] at empty
      rw [List.takeWhile_cons]
      split_ifs at empty ⊢
      rfl

/-- A path without a front is neither rooted nor begins with a piece of one dot. -/
theorem front_eq_nil_iff :
    path.front = [] ↔ path.isRooted = false ∧ path.octets.takeWhile (· ≠ slash) ≠ dot := by
  rw [front]
  split_ifs with rooted here
  · exact ⟨fun empty => absurd empty (by decide), fun bare => absurd rooted (by simp [bare.1])⟩
  · exact ⟨fun empty => absurd empty (by decide), fun bare => absurd here bare.2⟩
  · exact ⟨fun _ => ⟨Bool.eq_false_iff.mpr rooted, here⟩, fun _ => rfl⟩

/-- The beginnings of a relative path are relative. -/
theorem isRooted_eq_false_of_begins {octets : Octets} (begins : octets <+: path.octets)
    (unrooted : path.isRooted = false) : isRooted ⟨octets⟩ = false := by
  obtain ⟨rest, whole⟩ := begins
  cases octets with
  | nil => rfl
  | cons first others => rwa [isRooted, ← whole] at unrooted

/-- The first pieces of a path, spelled after its front, have this front. -/
theorem front_ofPieces {kept : List Octets} (begins : kept <+: path.pieces) :
    (ofPieces path.front kept).front = path.front := by
  have spelled : [slash].intercalate kept <+: path.octets.drop path.front.length := by
    have whole := intercalate_begins begins
    rwa [pieces, List.intercalate_splitOn] at whole
  rcases path.front_cases with rooted | here | bare
  · rw [rooted]
    exact isRooted_iff.mp rfl
  · have after := takeWhile_eq_nil_of_begins spelled (takeWhile_drop_of_here here)
    rw [here, ofPieces, front, if_neg, if_pos]
    · rw [List.takeWhile_append_of_pos dot_ne_slash, after, List.append_nil]
    · simp [isRooted, dot, slash]
  · obtain ⟨unrooted, noDot⟩ := front_eq_nil_iff.mp bare
    rw [bare] at spelled ⊢
    refine front_eq_nil_iff.mpr ⟨isRooted_eq_false_of_begins spelled unrooted, ?_⟩
    obtain ⟨others, split⟩ := begins
    cases kept with
    | nil => exact fun same => absurd same (by decide)
    | cons first rest =>
        have member : first ∈ path.pieces := by
          rw [← split]
          exact List.mem_cons_self
        have absent := not_mem_of_mem_pieces member
        have whole : path.octets = [slash].intercalate (first :: (rest ++ others)) := by
          conv_lhs => rw [← path.ofPieces_front_pieces, bare, ← split]
          rfl
        rw [whole, takeWhile_intercalate_cons absent] at noDot
        rwa [ofPieces, List.nil_append, takeWhile_intercalate_cons absent]

/-- A path that keeps some first pieces is absolute exactly if the whole path is. -/
theorem isRooted_ofPieces {kept : List Octets} (begins : kept <+: path.pieces) :
    (ofPieces path.front kept).isRooted = path.isRooted :=
  Bool.eq_iff_iff.mpr (by rw [isRooted_iff, isRooted_iff, front_ofPieces begins])

/-- The first pieces of a path, spelled after its front, stand for the same steps. -/
theorem components_ofPieces {kept : List Octets} (begins : kept <+: path.pieces) :
    (ofPieces path.front kept).components = path.leading ++ kept.filterMap stepOf? := by
  have front := front_ofPieces begins
  have same : (ofPieces path.front kept).leading = path.leading := by
    rw [leading, leading, front, isRooted_ofPieces begins]
  rw [components_eq, same, pieces, front, ofPieces, List.drop_left]
  congr 1
  cases kept with
  | nil => rfl
  | cons first rest =>
      rw [List.splitOn_intercalate slash _ (List.cons_ne_nil _ _)]
      exact fun piece member => not_mem_of_mem_pieces (begins.subset member)

/-- A path with a dot as its front is relative, and its first component is this dot. -/
theorem leading_of_here (here : path.front = dot) :
    path.isRooted = false ∧ path.leading = [.here] := by
  have unrooted : path.isRooted = false := by
    rw [Bool.eq_false_iff, ne_eq, isRooted_iff, here]
    decide
  rw [leading, unrooted, here]
  exact ⟨rfl, rfl⟩

/-! ## Parents -/

/-- What is dropped at the end is the longest run of pieces that count for nothing. -/
theorem dropVoidEnd_eq (pieces : List Octets) :
    dropVoidEnd pieces = pieces.rdropWhile isVoid :=
  rfl

/-- Pieces that count for nothing stand for no step. -/
theorem filterMap_rdropWhile (pieces : List Octets) :
    (pieces.rdropWhile isVoid).filterMap stepOf? = pieces.filterMap stepOf? := by
  induction pieces using List.reverseRecOn with
  | nil => rfl
  | append_singleton rest last ih =>
      by_cases void : isVoid last = true
      · have noStep : stepOf? last = none := if_pos void
        rw [List.rdropWhile_concat_pos _ _ _ void, ih, List.filterMap_append,
          List.filterMap_cons_none noStep, List.filterMap_nil, List.append_nil]
      · rw [List.rdropWhile_concat_neg _ _ _ void]

/-- A piece that counts stands for a step. -/
theorem exists_stepOf? {piece : Octets} (counts : isVoid piece ≠ true) :
    ∃ step, stepOf? piece = some step := by
  rw [stepOf?, if_neg counts]
  split_ifs
  · exact ⟨_, rfl⟩
  · exact ⟨_, rfl⟩

/-- What it means for a path to lie directly above another: it is spelled by a beginning of the
other's text, and the other has one component more. -/
structure IsParent (above path : FilePath) : Prop where
  begins : above.octets <+: path.octets
  components : ∃ step, path.components = above.components ++ [step]
  rooted : above.isRooted = path.isRooted

/-- The pieces of a parent are the first ones of the path, up to the last but one that counts. -/
theorem isParent_ofPieces (present : path.pieces.rdropWhile isVoid ≠ []) :
    IsParent (ofPieces path.front
      ((path.pieces.rdropWhile isVoid).dropLast.rdropWhile isVoid)) path := by
  have begins : (path.pieces.rdropWhile isVoid).dropLast.rdropWhile isVoid <+: path.pieces :=
    (List.rdropWhile_prefix _ _).trans ((List.dropLast_prefix _).trans (List.rdropWhile_prefix _ _))
  obtain ⟨step, stands⟩ := exists_stepOf? (List.rdropWhile_last_not isVoid path.pieces present)
  refine ⟨?_, ⟨step, ?_⟩, isRooted_ofPieces begins⟩
  · conv_rhs => rw [← path.ofPieces_front_pieces]
    exact (List.prefix_append_right_inj _).mpr (intercalate_begins begins)
  · rw [components_ofPieces begins, filterMap_rdropWhile, components_eq, List.append_assoc]
    congr 1
    conv_lhs =>
      rw [← filterMap_rdropWhile, ← List.dropLast_concat_getLast present, List.filterMap_append]
    rw [List.filterMap_cons_some stands, List.filterMap_nil]

/-- What is found as the parent of a path lies directly above it. -/
theorem isParent_of_parent? (found : path.parent? = some above) : IsParent above path := by
  rw [parent?, dropVoidEnd_eq] at found
  split at found
  case h_1 void =>
    -- Only the dot that a relative path begins with is left.
    split_ifs at found with here
    cases found
    obtain ⟨unrooted, leads⟩ := leading_of_here here
    refine ⟨List.nil_prefix, ⟨.here, ?_⟩, unrooted.symm⟩
    rw [components_eq, leads, ← filterMap_rdropWhile, void]
    rfl
  case h_2 present =>
    cases found
    exact isParent_ofPieces present

/-- Only the root and the empty path have no parent. -/
theorem components_of_parent?_eq_none (top : path.parent? = none) :
    path.components = if path.isRooted then [.root] else [] := by
  rw [parent?, dropVoidEnd_eq] at top
  split at top
  case h_1 void =>
    split_ifs at top with here
    rw [components_eq, ← filterMap_rdropWhile, void, leading, if_neg here]
    simp
  case h_2 => cases top

/-- A relative path without components is empty. -/
theorem eq_nil_of_components (unrooted : path.isRooted = false) (empty : path.components = []) :
    path.octets = [] := by
  rw [components_eq, List.append_eq_nil_iff] at empty
  obtain ⟨noLead, noStep⟩ := empty
  have bare : path.front = [] := by
    rcases path.front_cases with rooted | here | bare
    · exact absurd (isRooted_iff.mpr rooted) (by simp [unrooted])
    · exact absurd noLead (by simp [(leading_of_here here).2])
    · exact bare
  have whole : path.octets = [slash].intercalate path.pieces := by
    conv_lhs => rw [← path.ofPieces_front_pieces, bare]
    rfl
  cases split : path.pieces with
  | nil =>
      rw [whole, split]
      rfl
  | cons first rest =>
      have member : first ∈ path.pieces := by
        rw [split]
        exact List.mem_cons_self
      have void : isVoid first = true := by
        by_contra counts
        obtain ⟨step, stands⟩ := exists_stepOf? counts
        cases stands.symm.trans (List.filterMap_eq_nil_iff.mp noStep first member)
      obtain ⟨_, noDot⟩ := front_eq_nil_iff.mp bare
      rw [whole, split, takeWhile_intercalate_cons (not_mem_of_mem_pieces member)] at noDot
      have blank : first = [] := by simpa [isVoid, noDot] using void
      -- More pieces after an empty one would make the path begin with a slash.
      cases rest with
      | nil => rw [whole, split, blank, List.intercalate_singleton]
      | cons next others =>
          rw [isRooted, whole, split, blank, List.intercalate_cons_cons] at unrooted
          cases unrooted

/-- A parent is spelled with fewer octets, so the way up ends. -/
theorem length_lt_of_parent? (found : path.parent? = some above) :
    above.octets.length < path.octets.length := by
  have parent := isParent_of_parent? found
  refine lt_of_le_of_ne parent.begins.length_le fun same => ?_
  have equal : above = path := by
    obtain ⟨octets⟩ := above
    obtain ⟨others⟩ := path
    exact congrArg FilePath.mk (parent.begins.eq_of_length same)
  obtain ⟨step, whole⟩ := parent.components
  rw [equal] at whole
  exact absurd whole (by simp)

/-- **Going up ends.** What holds of the paths without a parent, and of every path whose parent it
holds of, holds of all paths. -/
theorem upward_induction {motive : FilePath → Prop}
    (top : ∀ path, path.parent? = none → motive path)
    (step : ∀ path above, path.parent? = some above → motive above → motive path)
    (path : FilePath) : motive path := by
  induction shorter : path.octets.length using Nat.strong_induction_on generalizing path with
  | _ length ih =>
      subst shorter
      cases found : path.parent? with
      | none => exact top path found
      | some above => exact step path above found (ih _ (length_lt_of_parent? found) above rfl)

/-! ## Joining -/

/-- What follows a slash after a path adds its steps to the components. -/
theorem components_append_slash {octets : Octets} (present : octets ≠ []) (rest : Octets) :
    components ⟨octets ++ slash :: rest⟩ = components ⟨octets⟩ ++ steps rest := by
  have rooted : isRooted ⟨octets ++ slash :: rest⟩ = isRooted ⟨octets⟩ := by
    rw [isRooted, isRooted, List.head?_append_of_ne_nil _ present]
  have first : (octets ++ slash :: rest).takeWhile (· ≠ slash) =
      octets.takeWhile (· ≠ slash) := by
    rw [List.takeWhile_append]
    split
    case isTrue whole =>
      rw [(List.takeWhile_prefix _).eq_of_length whole, List.takeWhile_cons_of_neg (by simp),
        List.append_nil]
    case isFalse => rfl
  have same : front ⟨octets ++ slash :: rest⟩ = front ⟨octets⟩ := by
    rw [front, front, rooted, first]
  have within : (front ⟨octets⟩).length ≤ octets.length := (front_begins ⟨octets⟩).length_le
  rw [components_eq, components_eq, leading, leading, rooted, same, pieces, pieces, same,
    List.drop_append_of_le_length within, List.append_assoc]
  congr 1
  exact steps_append _ rest

/-- A path below a directory has the components of the directory and then its own steps, if it
begins with a piece that counts for something. -/
theorem components_join (directory : FilePath) {octets : Octets}
    (present : octets.takeWhile (· ≠ slash) ≠ []) (noDot : octets.takeWhile (· ≠ slash) ≠ dot) :
    (directory.join ⟨octets⟩).components = directory.components ++ steps octets := by
  obtain ⟨start⟩ := directory
  rw [join, isRooted_of_begins present, if_neg Bool.false_ne_true]
  split
  case isTrue ready =>
    rcases List.eq_nil_or_concat start with rfl | ⟨before, last, rfl⟩
    · exact components_of_begins present noDot
    · have slashed : last = slash := by simpa using ready
      subst slashed
      rw [List.concat_eq_append, List.append_assoc, List.singleton_append]
      cases before with
      | nil =>
          rw [List.nil_append, components_of_rooted rfl, components_of_rooted rfl, steps_cons]
          rfl
      | cons first others =>
          rw [components_append_slash (List.cons_ne_nil _ _),
            components_append_slash (List.cons_ne_nil _ _), steps_nil, List.append_nil]
  case isFalse apart =>
    exact components_append_slash (fun empty => apart (.inl empty)) octets

end IssueRelay.FilePath
