import IssueRelay.Proofs.Tracking.Matching

/-!
# Both rounds together match as much as can be matched

In a round every issue that is still without takes the first server issue that fits and is free. So
whoever goes without has found all that fits taken (`IssueRelay.Tracking.taken_of_round`), and what
was matched before stays as it was. The first round therefore finds as many issues on their old
lines as there are to find, and the second round leaves no issue without while a server issue of
its rule and message is free: no matching has more pairs, and none has more pairs on the same line
(`IssueRelay.Tracking.track_matches_optimally`).
-/

namespace IssueRelay.Tracking

variable {fits : Issue → ServerIssue → Bool} {known : List ServerIssue} {taken : List Nat}
  {issues : List (Issue × Option Nat)}

/-! ## The first free place -/

/-- The first free place that is found is not taken, and a server issue that fits stands there. -/
theorem firstFree?_eq_some {issue : Issue} {place : Nat}
    (found : firstFree? fits known taken issue = some place) :
    place ∉ taken ∧ ∃ candidate, known[place]? = some candidate ∧ fits issue candidate = true := by
  obtain ⟨⟨candidate, _⟩, first, rfl⟩ := Option.map_eq_some_iff.mp found
  have among := List.mk_mem_zipIdx_iff_getElem?.mp (List.mem_of_find?_eq_some first)
  have free := List.find?_some first
  simp only [Bool.and_eq_true, Bool.not_eq_true', List.contains_eq_mem, decide_eq_false_iff_not]
    at free
  exact ⟨free.1, candidate, among, free.2⟩

/-- If no free place is found, all places that fit are taken. -/
theorem firstFree?_eq_none {issue : Issue} (none : firstFree? fits known taken issue = none)
    {place : Nat} {candidate : ServerIssue} (found : known[place]? = some candidate)
    (suits : fits issue candidate = true) : place ∈ taken := by
  have refused := List.find?_eq_none.mp (Option.map_eq_none_iff.mp none) (candidate, place)
    (List.mk_mem_zipIdx_iff_getElem?.mpr found)
  simpa [suits] using refused

/-! ## What a round leaves -/

/-- What is matched stays matched. -/
theorem mem_round_of_mem {issue : Issue} {place : Nat} (member : (issue, some place) ∈ issues) :
    (issue, some place) ∈ round fits known taken issues := by
  fun_induction round fits known taken issues with
  | case1 => cases member
  | case2 taken first own rest ih =>
      rcases List.mem_cons.mp member with same | later
      · exact same ▸ List.mem_cons_self
      · exact List.mem_cons_of_mem _ (ih later)
  | case3 taken first rest free found ih =>
      have later := List.mem_of_ne_of_mem (by simp) member
      exact List.mem_cons_of_mem _ (ih later)
  | case4 taken first rest none ih =>
      have later := List.mem_of_ne_of_mem (by simp) member
      exact List.mem_cons_of_mem _ (ih later)

/-- A pair is as it was before the round, or its issue has taken a place that fits. -/
theorem mem_round {pair : Issue × Option Nat} (member : pair ∈ round fits known taken issues) :
    pair ∈ issues ∨ (pair.1, none) ∈ issues ∧ ∃ place candidate,
      pair.2 = some place ∧ known[place]? = some candidate ∧ fits pair.1 candidate = true := by
  fun_induction round fits known taken issues with
  | case1 => cases member
  | case2 taken first own rest ih =>
      rcases List.mem_cons.mp member with rfl | later
      · exact .inl List.mem_cons_self
      · exact (ih later).imp (List.mem_cons_of_mem _) (.imp_left (List.mem_cons_of_mem _))
  | case3 taken first rest free found ih =>
      rcases List.mem_cons.mp member with rfl | later
      · obtain ⟨_, candidate, known, suits⟩ := firstFree?_eq_some found
        exact .inr ⟨List.mem_cons_self, free, candidate, rfl, known, suits⟩
      · exact (ih later).imp (List.mem_cons_of_mem _) (.imp_left (List.mem_cons_of_mem _))
  | case4 taken first rest none ih =>
      rcases List.mem_cons.mp member with rfl | later
      · exact .inl List.mem_cons_self
      · exact (ih later).imp (List.mem_cons_of_mem _) (.imp_left (List.mem_cons_of_mem _))

/-- A place that is held after a round was held before, or was free. -/
theorem mem_held_round {place : Nat}
    (member : place ∈ held (round fits known taken issues)) :
    place ∈ held issues ∨ place ∉ taken := by
  fun_induction round fits known taken issues with
  | case1 => cases member
  | case2 taken first own rest ih =>
      rw [held_matched] at member ⊢
      rcases List.mem_cons.mp member with rfl | later
      · exact .inl List.mem_cons_self
      · exact (ih later).imp_left (List.mem_cons_of_mem _)
  | case3 taken first rest free found ih =>
      rw [held_matched] at member
      rw [held_unmatched]
      rcases List.mem_cons.mp member with rfl | later
      · exact .inr (firstFree?_eq_some found).1
      · exact (ih later).imp_right fun unheld taken => unheld (List.mem_cons_of_mem _ taken)
  | case4 taken first rest none ih =>
      rw [held_unmatched] at member ⊢
      exact ih member

/-- No place is held twice after a round if none was before. -/
theorem nodup_round (distinct : (held issues).Nodup)
    (recorded : held issues ⊆ taken) :
    (held (round fits known taken issues)).Nodup := by
  fun_induction round fits known taken issues with
  | case1 => exact List.nodup_nil
  | case2 taken first own rest ih =>
      rw [held_matched] at distinct recorded ⊢
      obtain ⟨fresh, distinct⟩ := List.nodup_cons.mp distinct
      obtain ⟨ownTaken, recorded⟩ := List.cons_subset.mp recorded
      refine List.nodup_cons.mpr ⟨fun again => ?_, ih distinct recorded⟩
      exact (mem_held_round again).elim fresh fun free => free ownTaken
  | case3 taken first rest free found ih =>
      rw [held_unmatched] at distinct recorded
      rw [held_matched]
      refine List.nodup_cons.mpr ⟨fun again => ?_, ih distinct ?_⟩
      · rcases mem_held_round again with before | unheld
        · exact (firstFree?_eq_some found).1 (recorded before)
        · exact unheld List.mem_cons_self
      · exact fun place before => List.mem_cons_of_mem _ (recorded before)
  | case4 taken first rest none ih =>
      rw [held_unmatched] at distinct recorded ⊢
      exact ih distinct recorded

/-- Whoever goes without a place after a round has found all that fit taken. -/
theorem taken_of_round {issue : Issue} (without : (issue, none) ∈ round fits known taken issues)
    {place : Nat} {candidate : ServerIssue} (found : known[place]? = some candidate)
    (suits : fits issue candidate = true) :
    place ∈ taken ∨ place ∈ held (round fits known taken issues) := by
  fun_induction round fits known taken issues with
  | case1 => cases without
  | case2 taken first own rest ih =>
      have later := List.mem_of_ne_of_mem (by simp) without
      rw [held_matched]
      exact (ih later).imp_right (List.mem_cons_of_mem _)
  | case3 taken first rest free chosen ih =>
      have later := List.mem_of_ne_of_mem (by simp) without
      rw [held_matched]
      rcases ih later with before | taken
      · rcases List.mem_cons.mp before with rfl | earlier
        · exact .inr List.mem_cons_self
        · exact .inl earlier
      · exact .inr (List.mem_cons_of_mem _ taken)
  | case4 taken first rest none ih =>
      rw [held_unmatched]
      rcases List.mem_cons.mp without with same | later
      · obtain rfl : issue = first := congrArg Prod.fst same
        exact .inl (firstFree?_eq_none none found suits)
      · exact ih later

/-! ## Both rounds -/

section Both

variable (known : List ServerIssue) (issues : List Issue)

/-- What the first round matches. -/
def unmoved : List (Issue × Option Nat) :=
  round sameLine known [] (issues.map (·, none))

/-- At first no place is held. -/
theorem held_map_none : held (issues.map (·, none)) = [] := by
  induction issues with
  | nil => rfl
  | cons issue rest ih => exact ih

/-- Those whom the first round matches are matched on their own line. -/
theorem fits_unmoved {issue : Issue} {place : Nat}
    (member : (issue, some place) ∈ unmoved known issues) :
    ∃ candidate, known[place]? = some candidate ∧ sameLine issue candidate = true := by
  rcases mem_round member with before | ⟨_, chosen, candidate, same, found, suits⟩
  · simp at before
  · obtain rfl := Option.some.inj same
    exact ⟨candidate, found, suits⟩

/-- What the rounds arrive at is a matching. -/
theorem isMatching_places : IsMatching known (places known issues) where
  fits := by
    intro issue place member
    rcases mem_round member with before | ⟨_, chosen, candidate, same, found, suits⟩
    · obtain ⟨candidate, found, suits⟩ := fits_unmoved known issues before
      exact ⟨candidate, found, (sameLine_iff.mp suits).1⟩
    · obtain rfl := Option.some.inj same
      exact ⟨candidate, found, suits⟩
  distinct := by
    apply nodup_round
    · apply nodup_round
      · rw [held_map_none]
        exact List.nodup_nil
      · rw [held_map_none]
        exact List.nil_subset _
    · exact List.Subset.refl _

/-- Every rule and message has as many pairs as there can be. -/
theorem countP_isMatched (ruleKey message : String) :
    (places known issues).countP (fun pair => reads ruleKey message pair.1 && isMatched pair) =
      min (issues.countP (reads ruleKey message)) (known.countP (knownAs ruleKey message)) := by
  have matching := isMatching_places known issues
  rw [matching.countP_isMatched, matching.paired_eq_min, map_fst_places]
  · rintro ⟨issue, own⟩ member reading unjoined place candidate found ofKind
    rw [← matching.reads_and_isMatched ruleKey message member, reading, Bool.true_and] at unjoined
    obtain rfl : own = none :=
      Option.not_isSome_iff_eq_none.mp (by simpa [isMatched] using unjoined)
    -- The candidate fits the issue that goes without, so it has been taken by another.
    have suits := sameMessage_of_kind reading ofKind
    have taken : place ∈ held (places known issues) := by
      rcases taken_of_round member found suits with before | now
      · obtain ⟨holder, earlier⟩ := mem_held.mp before
        exact mem_held.mpr ⟨holder, mem_round_of_mem earlier⟩
      · exact now
    obtain ⟨holder, matched⟩ := mem_held.mp taken
    refine ⟨holder, matched, ?_⟩
    obtain ⟨_, again, same⟩ := matching.fits holder place matched
    obtain rfl := Option.some.inj (found.symm.trans again)
    rw [← knownAs_eq_reads same, ofKind]

/-- Every rule, line and message has as many pairs on the line as there can be. -/
theorem countP_isUnmoved (ruleKey : String) (line : UInt32) (message : String) :
    (places known issues).countP
        (fun pair => readsAt ruleKey line message pair.1 && isUnmoved known pair) =
      min (issues.countP (readsAt ruleKey line message))
        (known.countP (knownAt ruleKey line message)) := by
  have matching := isMatching_places known issues
  rw [matching.countP_isUnmoved, matching.paired_eq_min, map_fst_places]
  · rintro ⟨issue, own⟩ member reading unjoined place candidate found ofKind
    rw [← matching.readsAt_and_isUnmoved ruleKey line message member, reading,
      Bool.true_and] at unjoined
    -- An issue that the first round has matched stays on its line, so this one went without.
    have without : (issue, none) ∈ unmoved known issues := by
      rcases mem_round member with before | ⟨before, _⟩
      · cases own with
        | none => exact before
        | some own =>
            obtain ⟨partner, present, suits⟩ := fits_unmoved known issues before
            have stays := (sameLine_iff.mp suits).2
            simp [isUnmoved, present, stays] at unjoined
      · exact before
    have suits := sameLine_of_kind reading ofKind
    have taken : place ∈ held (unmoved known issues) := by
      rcases taken_of_round without found suits with before | now
      · cases before
      · exact now
    obtain ⟨holder, matched⟩ := mem_held.mp taken
    refine ⟨holder, mem_round_of_mem matched, ?_⟩
    obtain ⟨_, again, same⟩ := fits_unmoved known issues matched
    obtain rfl := Option.some.inj (found.symm.trans again)
    rw [← knownAt_eq_readsAt same, ofKind]

/-- A status is told by the server issue at the place, if there is one. -/
theorem statusAt_eq (place : Option Nat) :
    statusAt known place =
      { key := (place.bind (known[·]?)).map ServerIssue.key
        resolved := (place.bind (known[·]?)).any ServerIssue.resolved } := by
  unfold statusAt
  cases place.bind (known[·]?) <;> rfl

/-- What is said of an issue is what the server issue in its place says. -/
theorem getElem?_track {index : Nat} (inside : index < issues.length) :
    ∃ place, (places known issues)[index]? = some (issues[index], place) ∧
      (track known issues)[index]? = some
        { index
          issue := issues[index]
          status :=
            { key := (place.bind (known[·]?)).map ServerIssue.key
              resolved := (place.bind (known[·]?)).any ServerIssue.resolved } } := by
  have listed := map_fst_places known issues
  have length : (places known issues).length = issues.length := by
    rw [← List.length_map Prod.fst, listed]
  obtain ⟨⟨issue, place⟩, found⟩ : ∃ pair, (places known issues)[index]? = some pair :=
    ⟨_, List.getElem?_eq_getElem (length ▸ inside)⟩
  have same : issues[index]? = some issue := by
    rw [← listed, List.getElem?_map, found]
    rfl
  obtain rfl : issues[index] = issue :=
    Option.some.inj ((List.getElem?_eq_getElem inside).symm.trans same)
  refine ⟨place, found, ?_⟩
  rw [track, List.getElem?_map, List.getElem?_zipIdx, found, Nat.zero_add, ← statusAt_eq]
  rfl

end Both

/-- **Optimal matching.** Every reported issue is answered for in its place, with the key and
resolution of the server issue it is matched with, or with none. The matching is one to one and
keeps to rules and messages; for every rule, line and message it has as many pairs on the line as
there are issues of either side, whichever are fewer, and for every rule and message as many pairs
in all. No matching of the same issues has more pairs, and none has more on the same line. -/
theorem track_matches_optimally (known : List ServerIssue) (issues : List Issue) :
    (track known issues).length = issues.length ∧
      (∀ index (inside : index < issues.length), ∃ place,
        (places known issues)[index]? = some (issues[index], place) ∧
          (track known issues)[index]? = some
            { index
              issue := issues[index]
              status :=
                { key := (place.bind (known[·]?)).map ServerIssue.key
                  resolved := (place.bind (known[·]?)).any ServerIssue.resolved } }) ∧
      IsMatching known (places known issues) ∧ (places known issues).map Prod.fst = issues ∧
      (∀ ruleKey line message,
        (places known issues).countP
            (fun pair => readsAt ruleKey line message pair.1 && isUnmoved known pair) =
          min (issues.countP (readsAt ruleKey line message))
            (known.countP (knownAt ruleKey line message))) ∧
      (∀ ruleKey message,
        (places known issues).countP
            (fun pair => reads ruleKey message pair.1 && isMatched pair) =
          min (issues.countP (reads ruleKey message))
            (known.countP (knownAs ruleKey message))) ∧
      ∀ other, IsMatching known other → other.map Prod.fst = issues →
        other.countP isMatched ≤ (places known issues).countP isMatched ∧
          other.countP (isUnmoved known) ≤ (places known issues).countP (isUnmoved known) := by
  refine ⟨length_track known issues, fun index inside => getElem?_track known issues inside,
    isMatching_places known issues, map_fst_places known issues, countP_isUnmoved known issues,
    countP_isMatched known issues, fun other matching same => ⟨?_, ?_⟩⟩
  · apply countP_le_of_classes fun pair => (pair.1.ruleKey, pair.1.message)
    rintro ⟨ruleKey, message⟩
    simp only [← reads_eq_decide]
    rw [countP_isMatched, matching.countP_isMatched, ← same]
    exact matching.paired_le_min _ _
  · apply countP_le_of_classes fun pair => (pair.1.ruleKey, pair.1.range.startLine, pair.1.message)
    rintro ⟨ruleKey, line, message⟩
    simp only [← readsAt_eq_decide]
    rw [countP_isUnmoved, matching.countP_isUnmoved, ← same]
    exact matching.paired_le_min _ _

end IssueRelay.Tracking
