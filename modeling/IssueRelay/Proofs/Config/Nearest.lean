import IssueRelay.Config.Load
import IssueRelay.Proofs.Files.Parent
import Mathlib.Data.List.Find

/-!
# The nearest configuration

The file in force for a directory is looked for there, then in the parent, and so on. This way up
goes through a directory for each component and ends at the root, or at the empty path if it begins
at a relative one. The search gives the file in the first directory on the way that holds one, and
no other file of the machine has a say in it (`IssueRelay.Config.find?_is_nearest`).
-/

namespace IssueRelay.Config

open FilePath (upward_induction length_lt_of_parent? isParent_of_parent?)

variable {directory start above : FilePath} {way : List FilePath}

/-! ## The search as a loop -/

/-- Where there is no parent, the way up is over. -/
theorem upwardsWithin_of_top (last : directory.parent? = none) (bound : Nat) :
    upwardsWithin bound directory = [directory] := by
  cases bound with
  | zero => rfl
  | succ bound =>
      rw [upwardsWithin, last]
      rfl

/-- A bound on the number of directories does not matter if it is not less than the length of the
path. -/
theorem upwardsWithin_congr {left right : Nat} (enough : directory.octets.length ≤ left)
    (too : directory.octets.length ≤ right) :
    upwardsWithin left directory = upwardsWithin right directory := by
  induction directory using upward_induction generalizing left right with
  | top directory last => rw [upwardsWithin_of_top last, upwardsWithin_of_top last]
  | step directory above next ih =>
      have shorter := length_lt_of_parent? next
      obtain ⟨left, rfl⟩ := Nat.exists_eq_add_one_of_ne_zero (show left ≠ 0 by omega)
      obtain ⟨right, rfl⟩ := Nat.exists_eq_add_one_of_ne_zero (show right ≠ 0 by omega)
      have same : upwardsWithin left above = upwardsWithin right above :=
        ih (by omega) (by omega)
      rw [upwardsWithin, upwardsWithin, next, Option.map_some, Option.map_some, same]

/-- The directories above a directory are its parent and those above the parent. -/
theorem upwards_eq (directory : FilePath) :
    upwards directory = directory :: (directory.parent?.map upwards).getD [] := by
  have more : upwards directory = upwardsWithin (directory.octets.length + 1) directory :=
    upwardsWithin_congr le_rfl (Nat.le_succ _)
  rw [more, upwardsWithin]
  cases found : directory.parent? with
  | none => rfl
  | some above =>
      have shorter := length_lt_of_parent? found
      rw [Option.map_some, Option.map_some, upwards, upwardsWithin_congr le_rfl shorter.le]

/-- The search looks into a directory first, and then goes on above it. -/
theorem find?_eq (isThere : FilePath → Bool) (directory : FilePath) :
    find? isThere directory =
      if isThere (directory.join fileName) then some (directory.join fileName)
      else directory.parent?.bind (find? isThere) := by
  rw [find?, upwards_eq, List.map_cons, List.find?_cons]
  split
  case h_1 there => rw [if_pos there]
  case h_2 absent =>
    rw [if_neg (Bool.eq_false_iff.mp absent)]
    cases directory.parent? with
    | none => rfl
    | some above => rfl

/-! ## The way up -/

/-- A way leads up from a directory through parents alone, until there is no parent. -/
inductive WayUp : FilePath → List FilePath → Prop
  | top {directory : FilePath} (last : directory.parent? = none) : WayUp directory [directory]
  | up {directory above : FilePath} {way : List FilePath} (next : directory.parent? = some above)
      (farther : WayUp above way) : WayUp directory (directory :: way)

/-- The directories that are searched lead up from the first one. -/
theorem wayUp_upwards (directory : FilePath) : WayUp directory (upwards directory) := by
  induction directory using upward_induction with
  | top directory last =>
      rw [upwards_eq, last]
      exact .top last
  | step directory above next ih =>
      rw [upwards_eq, next]
      exact .up next ih

namespace WayUp

/-- There is a directory for each component, and the empty path above a relative one. -/
theorem length_eq (leads : WayUp start way) :
    way.length = start.components.length + if start.isRooted then 0 else 1 := by
  induction leads with
  | top last =>
      rw [FilePath.components_of_parent?_eq_none last]
      split <;> rfl
  | up next farther ih =>
      obtain ⟨_, ⟨step, whole⟩, rooted⟩ := isParent_of_parent? next
      rw [List.length_cons, ih, whole, List.length_append, List.length_singleton, rooted]
      omega

/-- The way ends at the root, or at the empty path. -/
theorem getLast?_eq (leads : WayUp start way) {last : FilePath} (ends : way.getLast? = some last) :
    if start.isRooted then last.components = [.root] else last.octets = [] := by
  induction leads with
  | top top =>
      rw [List.getLast?_singleton, Option.some.injEq] at ends
      subst ends
      have components := FilePath.components_of_parent?_eq_none top
      split
      case isTrue rooted => rw [components, if_pos rooted]
      case isFalse unrooted =>
        rw [if_neg unrooted] at components
        exact FilePath.eq_nil_of_components (Bool.eq_false_iff.mpr unrooted) components
  | up next farther ih =>
      have rooted := (isParent_of_parent? next).rooted
      rw [← rooted]
      refine ih ?_
      cases farther <;> exact ends

/-- The directory some steps up is spelled by a beginning of the text and lacks as many
components. -/
theorem getElem?_eq (leads : WayUp start way) {steps : Nat} (reached : way[steps]? = some above) :
    above.octets <+: start.octets ∧
      above.components = start.components.take (start.components.length - steps) := by
  induction leads generalizing steps with
  | top last =>
      cases steps with
      | zero =>
          cases reached
          exact ⟨List.prefix_rfl, by simp⟩
      | succ => cases reached
  | up next farther ih =>
      cases steps with
      | zero =>
          cases reached
          exact ⟨List.prefix_rfl, by simp⟩
      | succ steps =>
          obtain ⟨begins, ⟨step, whole⟩, _⟩ := isParent_of_parent? next
          obtain ⟨before, components⟩ := ih reached
          refine ⟨before.trans begins, ?_⟩
          rw [components, whole, List.length_append, List.length_singleton,
            Nat.add_sub_add_right, List.take_append_of_le_length (Nat.sub_le _ _)]

/-- The search goes along the way. -/
theorem find?_eq (leads : WayUp start way) (isThere : FilePath → Bool) :
    find? isThere start = (way.map (·.join fileName)).find? isThere := by
  induction leads with
  | top last =>
      rw [Config.find?_eq, last, List.map_singleton, List.find?_singleton]
      rfl
  | up next farther ih =>
      rw [Config.find?_eq, next, Option.bind_some, ih, List.map_cons, List.find?_cons]
      split
      case isTrue there => rw [there]
      case isFalse absent => rw [Bool.eq_false_iff.mpr absent]

end WayUp

/-- A file in a directory has the components of the directory and its own name. -/
theorem components_join_fileName (directory : FilePath) :
    (directory.join fileName).components = directory.components ++ [.name fileName.octets] := by
  have own : FilePath.steps fileName.octets = [.name fileName.octets] := by decide +kernel
  rw [← own]
  exact directory.components_join (by decide +kernel) (by decide +kernel)

/-! ## The nearest file -/

/-- What it means for directories to be those from a directory up to the top. -/
structure LeadsUp (start : FilePath) (way : List FilePath) : Prop where
  /-- Each is the parent of the one before it, and the last has no parent. -/
  parents : WayUp start way
  /-- There is one for each component, and the empty path above a relative one. -/
  length : way.length = start.components.length + if start.isRooted then 0 else 1
  /-- The last is the root or the empty path. -/
  ends : ∀ last, way.getLast? = some last →
    if start.isRooted then last.components = [.root] else last.octets = []
  /-- So many steps up, the path as written has lost as many components at its end. -/
  directories : ∀ steps above, way[steps]? = some above →
    above.octets <+: start.octets ∧
      above.components = start.components.take (start.components.length - steps)
  /-- A configuration in one of them has its components and a name of its own. -/
  files : ∀ above ∈ way,
    (above.join fileName).components = above.components ++ [.name fileName.octets]

/-- What it means for the search from a directory to find the nearest file on the way up. -/
structure FindsNearest (start : FilePath) (way : List FilePath) (isThere : FilePath → Bool) :
    Prop where
  /-- The file in the first directory that holds one is found. -/
  found : ∀ path, find? isThere start = some path ↔
    ∃ nearer above farther, way = nearer ++ above :: farther ∧ path = above.join fileName ∧
      isThere path = true ∧ ∀ other ∈ nearer, isThere (other.join fileName) = false
  /-- Nothing is found exactly if no directory holds one. -/
  missing : find? isThere start = none ↔ ∀ above ∈ way, isThere (above.join fileName) = false
  /-- Other files, in these directories or elsewhere, make no difference. -/
  unaffected : ∀ later : FilePath → Bool,
    (∀ above ∈ way, later (above.join fileName) = isThere (above.join fileName)) →
      find? later start = find? isThere start

/-- A way up has one directory for each component, and it ends at the root or at the empty path. -/
theorem WayUp.leadsUp (leads : WayUp start way) : LeadsUp start way where
  parents := leads
  length := leads.length_eq
  ends _ := leads.getLast?_eq
  directories _ _ := leads.getElem?_eq
  files above _ := components_join_fileName above

/-- Searching a way up finds the file in the first directory that holds one. -/
theorem WayUp.findsNearest (leads : WayUp start way) (isThere : FilePath → Bool) :
    FindsNearest start way isThere where
  found path := by
    rw [leads.find?_eq, List.find?_eq_some_iff_append]
    constructor
    · rintro ⟨there, before, after, whole, absent⟩
      obtain ⟨nearer, rest, rfl, rfl, onward⟩ := List.map_eq_append_iff.mp whole
      obtain ⟨above, farther, rfl, rfl, rfl⟩ := List.map_eq_cons_iff.mp onward
      refine ⟨nearer, above, farther, rfl, rfl, there, fun other member => ?_⟩
      simpa using absent _ (List.mem_map_of_mem member)
    · rintro ⟨nearer, above, farther, rfl, rfl, there, absent⟩
      refine ⟨there, nearer.map (·.join fileName), farther.map (·.join fileName),
        by rw [List.map_append, List.map_cons], fun file member => ?_⟩
      obtain ⟨other, listed, rfl⟩ := List.mem_map.mp member
      rw [absent other listed]
      rfl
  missing := by
    rw [leads.find?_eq, List.find?_eq_none]
    simp
  unaffected later same := by
    rw [leads.find?_eq, leads.find?_eq]
    refine List.find?_congr fun file member => ?_
    obtain ⟨above, listed, rfl⟩ := List.mem_map.mp member
    exact same above listed

/-- **The nearest configuration.** From every directory a way leads up through its parents to the
root, or to the empty path, and ends there after as many directories as the path has components.
Whatever files there are, the search finds the file in the first of these directories that holds
one, and nothing exactly if none of them does; no other file makes a difference to it. -/
theorem find?_is_nearest (start : FilePath) :
    ∃ way, LeadsUp start way ∧ ∀ isThere, FindsNearest start way isThere :=
  have leads := wayUp_upwards start
  ⟨_, leads.leadsUp, leads.findsNearest⟩

example : (upwards (.ofText "./a//b/.")).map FilePath.text = ["./a//b/.", "./a", ".", ""] := by
  cbv

end IssueRelay.Config
