import IssueRelay.Tracking
import Mathlib.Data.List.Count
import Mathlib.Data.List.Dedup
import Mathlib.Data.List.Perm.Subperm

/-!
# Matchings of reported issues with server issues

A matching gives some of the reported issues a server issue of equal rule and message, each server
issue to one of them at most. Between reported issues of one kind and server issues of another
there are never more pairs than there are of either; there are as many as that if no issue of the
kind goes without while a server issue of the other is free
(`IssueRelay.Tracking.IsMatching.paired_eq_min`). A matching that reaches this number for every
kind has the most pairs of all (`IssueRelay.Tracking.countP_le_of_classes`).
-/

namespace IssueRelay.Tracking

/-- The places of server issues that are matched. -/
def held (pairs : List (Issue × Option Nat)) : List Nat :=
  pairs.filterMap Prod.snd

/-- Whether reported issues and places of server issues are matched one to one, with equal rules and
messages. -/
structure IsMatching (known : List ServerIssue) (pairs : List (Issue × Option Nat)) : Prop where
  fits : ∀ issue place, (issue, some place) ∈ pairs →
    ∃ candidate, known[place]? = some candidate ∧ sameMessage issue candidate = true
  distinct : (held pairs).Nodup

/-- Whether an issue has a given rule and message. -/
def reads (ruleKey message : String) (issue : Issue) : Bool :=
  issue.ruleKey = ruleKey && issue.message = message

/-- Whether an issue has a given rule and message and starts on a given line. -/
def readsAt (ruleKey : String) (line : UInt32) (message : String) (issue : Issue) : Bool :=
  reads ruleKey message issue && issue.range.startLine = line

/-- Whether a server issue has a given rule and message. -/
def knownAs (ruleKey message : String) (candidate : ServerIssue) : Bool :=
  candidate.ruleKey = ruleKey && candidate.message = message

/-- Whether a server issue has a given rule and message and is on a given line. -/
def knownAt (ruleKey : String) (line : UInt32) (message : String) (candidate : ServerIssue) :
    Bool :=
  knownAs ruleKey message candidate && candidate.line = some line

/-- Whether the issue of a pair is matched. -/
def isMatched (pair : Issue × Option Nat) : Bool :=
  pair.2.isSome

/-- Whether the issue of a pair is matched with a server issue on the line on which it starts. -/
def isUnmoved (known : List ServerIssue) (pair : Issue × Option Nat) : Bool :=
  (pair.2.bind (known[·]?)).any fun candidate => candidate.line = some pair.1.range.startLine

/-- Whether a pair matches an issue of one kind with a server issue of another. -/
def joins (known : List ServerIssue) (mine : Issue → Bool) (theirs : ServerIssue → Bool)
    (pair : Issue × Option Nat) : Bool :=
  mine pair.1 && (pair.2.bind (known[·]?)).any theirs

/-- How many pairs match an issue of one kind with a server issue of another. -/
def paired (known : List ServerIssue) (pairs : List (Issue × Option Nat)) (mine : Issue → Bool)
    (theirs : ServerIssue → Bool) : Nat :=
  pairs.countP (joins known mine theirs)

/-- The places of the server issues of a kind. -/
def placesOf (known : List ServerIssue) (theirs : ServerIssue → Bool) : List Nat :=
  (known.zipIdx.filter fun (candidate, _) => theirs candidate).map Prod.snd

variable {known : List ServerIssue} {pairs : List (Issue × Option Nat)} {mine : Issue → Bool}
  {theirs : ServerIssue → Bool}

/-- The place of a matched issue is held. -/
@[simp] theorem held_matched (issue : Issue) (place : Nat) (rest : List (Issue × Option Nat)) :
    held ((issue, some place) :: rest) = place :: held rest :=
  rfl

/-- An issue without a match holds no place. -/
@[simp] theorem held_unmatched (issue : Issue) (rest : List (Issue × Option Nat)) :
    held ((issue, none) :: rest) = held rest :=
  rfl

/-- A place is held if some issue is matched with it. -/
theorem mem_held {place : Nat} : place ∈ held pairs ↔ ∃ issue, (issue, some place) ∈ pairs := by
  simp [held]

/-- Having a rule and a message is one equation of pairs. -/
theorem reads_eq_decide (ruleKey message : String) (issue : Issue) :
    reads ruleKey message issue = decide ((issue.ruleKey, issue.message) = (ruleKey, message)) := by
  simp [reads]

/-- Having a rule, a line and a message is one equation of triples. -/
theorem readsAt_eq_decide (ruleKey : String) (line : UInt32) (message : String) (issue : Issue) :
    readsAt ruleKey line message issue = decide
      ((issue.ruleKey, issue.range.startLine, issue.message) = (ruleKey, line, message)) := by
  simp only [readsAt, reads, Prod.mk.injEq, Bool.decide_and]
  exact (Bool.and_right_comm ..).trans (Bool.and_assoc ..)

/-- An issue fits a server issue by message if both have the same rule and message. -/
theorem sameMessage_iff {issue : Issue} {candidate : ServerIssue} :
    sameMessage issue candidate = true ↔
      candidate.ruleKey = issue.ruleKey ∧ candidate.message = issue.message := by
  simp [sameMessage]

/-- An issue fits a server issue by line if it fits by message and the server issue is on its line.
-/
theorem sameLine_iff {issue : Issue} {candidate : ServerIssue} :
    sameLine issue candidate = true ↔
      sameMessage issue candidate = true ∧ candidate.line = some issue.range.startLine := by
  simp only [sameLine, sameMessage, Bool.and_eq_true, decide_eq_true_eq]
  exact and_right_comm

section Kinds

variable {issue : Issue} {candidate : ServerIssue} {ruleKey message : String} {line : UInt32}

/-- Issues that fit by message are of one kind by rule and message. -/
theorem knownAs_eq_reads (same : sameMessage issue candidate = true) :
    knownAs ruleKey message candidate = reads ruleKey message issue := by
  obtain ⟨rule, text⟩ := sameMessage_iff.mp same
  rw [knownAs, reads, rule, text]

/-- Issues that fit by line are of one kind by rule, line and message. -/
theorem knownAt_eq_readsAt (same : sameLine issue candidate = true) :
    knownAt ruleKey line message candidate = readsAt ruleKey line message issue := by
  obtain ⟨same, stays⟩ := sameLine_iff.mp same
  rw [knownAt, readsAt, knownAs_eq_reads same, stays]
  simp

/-- Issues of one kind by rule and message fit by message. -/
theorem sameMessage_of_kind (mine : reads ruleKey message issue = true)
    (theirs : knownAs ruleKey message candidate = true) : sameMessage issue candidate = true := by
  simp only [reads, knownAs, Bool.and_eq_true, decide_eq_true_eq] at mine theirs
  exact sameMessage_iff.mpr ⟨theirs.1.trans mine.1.symm, theirs.2.trans mine.2.symm⟩

/-- Issues of one kind by rule, line and message fit by line. -/
theorem sameLine_of_kind (mine : readsAt ruleKey line message issue = true)
    (theirs : knownAt ruleKey line message candidate = true) : sameLine issue candidate = true := by
  simp only [readsAt, knownAt, Bool.and_eq_true, decide_eq_true_eq] at mine theirs
  exact sameLine_iff.mpr ⟨sameMessage_of_kind mine.1 theirs.1, by rw [theirs.2, mine.2]⟩

end Kinds

/-- A pair joins two kinds if its issue is of the first and its server issue of the second. -/
theorem joins_some {issue : Issue} {place : Nat} :
    joins known mine theirs (issue, some place) = true ↔
      mine issue = true ∧
        ∃ candidate, known[place]? = some candidate ∧ theirs candidate = true := by
  simp [joins, Option.any_eq_true]

/-- The places of a kind are those where a server issue of this kind stands. -/
theorem mem_placesOf {place : Nat} :
    place ∈ placesOf known theirs ↔
      ∃ candidate, known[place]? = some candidate ∧ theirs candidate = true := by
  simp [placesOf, List.mk_mem_zipIdx_iff_getElem?]

/-- No place of a kind is listed twice. -/
theorem nodup_placesOf : (placesOf known theirs).Nodup := by
  have distinct : (known.zipIdx.map Prod.snd).Nodup := by
    rw [List.zipIdx_map_snd]
    exact List.nodup_range'
  exact distinct.sublist (List.filter_sublist.map _)

/-- A kind has as many places as server issues. -/
theorem length_placesOf : (placesOf known theirs).length = known.countP theirs := by
  have counted := List.countP_map (p := theirs) (f := Prod.fst) (l := known.zipIdx)
  rw [List.zipIdx_map_fst] at counted
  rw [placesOf, List.length_map, ← List.countP_eq_length_filter, counted]
  rfl

/-- The places that are taken by pairs between two kinds. -/
def takenBy (known : List ServerIssue) (pairs : List (Issue × Option Nat)) (mine : Issue → Bool)
    (theirs : ServerIssue → Bool) : List Nat :=
  held (pairs.filter (joins known mine theirs))

/-- A place is taken between two kinds if a pair with it joins them. -/
theorem mem_takenBy {place : Nat} :
    place ∈ takenBy known pairs mine theirs ↔
      ∃ issue, (issue, some place) ∈ pairs ∧
        joins known mine theirs (issue, some place) = true := by
  simp [takenBy, mem_held]

/-- As many places are taken between two kinds as pairs join them. -/
theorem length_takenBy :
    (takenBy known pairs mine theirs).length = paired known pairs mine theirs := by
  have present : ∀ pair ∈ pairs.filter (joins known mine theirs), (Prod.snd pair).isSome := by
    rintro ⟨issue, place⟩ member
    cases place with
    | none => simp [joins] at member
    | some place => rfl
  rw [takenBy, held, List.length_filterMap_eq_countP, List.countP_eq_length.mpr present, paired,
    List.countP_eq_length_filter]

/-- A matching takes no place twice. -/
theorem IsMatching.nodup_takenBy (matching : IsMatching known pairs) :
    (takenBy known pairs mine theirs).Nodup :=
  matching.distinct.sublist (List.filter_sublist.filterMap _)

/-! ## How many pairs there can be -/

/-- At most as many pairs join two kinds as there are issues of the first. -/
theorem paired_le_mine (mine : Issue → Bool) (theirs : ServerIssue → Bool) :
    paired known pairs mine theirs ≤ (pairs.map Prod.fst).countP mine := by
  rw [List.countP_map]
  exact List.countP_mono_left fun pair _ joined => (Bool.and_eq_true_iff.mp joined).1

/-- Server issues are matched once at most. -/
theorem IsMatching.paired_le_theirs (matching : IsMatching known pairs) (mine : Issue → Bool)
    (theirs : ServerIssue → Bool) :
    paired known pairs mine theirs ≤ known.countP theirs := by
  rw [← length_takenBy, ← length_placesOf]
  apply (List.subperm_of_subset matching.nodup_takenBy _).length_le
  intro place taken
  obtain ⟨issue, _, joined⟩ := mem_takenBy.mp taken
  exact mem_placesOf.mpr (joins_some.mp joined).2

/-- There are as many pairs as server issues if each of these is matched. -/
theorem theirs_le_paired
    (every : ∀ place candidate, known[place]? = some candidate → theirs candidate = true →
      ∃ issue, (issue, some place) ∈ pairs ∧ mine issue = true) :
    known.countP theirs ≤ paired known pairs mine theirs := by
  rw [← length_takenBy, ← length_placesOf]
  apply (List.subperm_of_subset nodup_placesOf _).length_le
  intro place member
  obtain ⟨candidate, found, ofKind⟩ := mem_placesOf.mp member
  obtain ⟨issue, matched, own⟩ := every place candidate found ofKind
  exact mem_takenBy.mpr ⟨issue, matched, joins_some.mpr ⟨own, candidate, found, ofKind⟩⟩

/-- A matching joins at most as many pairs of two kinds as there are issues of the rarer one. -/
theorem IsMatching.paired_le_min (matching : IsMatching known pairs) (mine : Issue → Bool)
    (theirs : ServerIssue → Bool) :
    paired known pairs mine theirs ≤
      min ((pairs.map Prod.fst).countP mine) (known.countP theirs) :=
  Nat.le_min.mpr ⟨paired_le_mine mine theirs, matching.paired_le_theirs mine theirs⟩

/-- There are as many pairs as can be, if an issue of the kind goes without only when all server
issues of the other kind are matched with issues of the kind. -/
theorem IsMatching.paired_eq_min (matching : IsMatching known pairs)
    (saturated : ∀ pair ∈ pairs, mine pair.1 = true → joins known mine theirs pair = false →
      ∀ place candidate, known[place]? = some candidate → theirs candidate = true →
        ∃ issue, (issue, some place) ∈ pairs ∧ mine issue = true) :
    paired known pairs mine theirs =
      min ((pairs.map Prod.fst).countP mine) (known.countP theirs) := by
  apply Nat.le_antisymm (matching.paired_le_min mine theirs)
  -- Either some issue of the kind goes without, and then the server issues are used up, or none
  -- does.
  by_cases without : ∃ pair ∈ pairs, mine pair.1 = true ∧ joins known mine theirs pair = false
  · obtain ⟨pair, member, own, unmatched⟩ := without
    exact Nat.le_trans (Nat.min_le_right _ _)
      (theirs_le_paired (saturated pair member own unmatched))
  · refine Nat.le_trans (Nat.min_le_left _ _) ?_
    rw [List.countP_map]
    refine List.countP_mono_left fun pair member own => ?_
    by_contra unmatched
    exact without ⟨pair, member, own, Bool.eq_false_iff.mpr unmatched⟩

/-! ## Issues of one rule and message -/

section Kinds

variable (matching : IsMatching known pairs) (ruleKey : String) (line : UInt32) (message : String)

include matching

/-- Issues are matched with server issues of their own rule and message. -/
theorem IsMatching.reads_and_isMatched {pair : Issue × Option Nat} (member : pair ∈ pairs) :
    (reads ruleKey message pair.1 && isMatched pair) =
      joins known (reads ruleKey message) (knownAs ruleKey message) pair := by
  obtain ⟨issue, place⟩ := pair
  cases place with
  | none => simp [isMatched, joins]
  | some place =>
      obtain ⟨candidate, found, same⟩ := matching.fits issue place member
      simp [isMatched, joins, found, knownAs_eq_reads same]

/-- In a matching, an unmoved issue is joined with a server issue of its own kind by rule, line and
message. -/
theorem IsMatching.readsAt_and_isUnmoved {pair : Issue × Option Nat} (member : pair ∈ pairs) :
    (readsAt ruleKey line message pair.1 && isUnmoved known pair) =
      joins known (readsAt ruleKey line message) (knownAt ruleKey line message) pair := by
  obtain ⟨issue, place⟩ := pair
  cases place with
  | none => simp [isUnmoved, joins]
  | some place =>
      obtain ⟨candidate, found, same⟩ := matching.fits issue place member
      rw [Bool.eq_iff_iff]
      simp only [isUnmoved, joins, Option.bind_some, found, Option.any_some, readsAt, knownAt,
        knownAs_eq_reads same, Bool.and_eq_true, decide_eq_true_eq]
      constructor
      · rintro ⟨⟨own, rfl⟩, stays⟩
        exact ⟨⟨own, rfl⟩, own, stays⟩
      · rintro ⟨⟨own, rfl⟩, _, stays⟩
        exact ⟨⟨own, rfl⟩, stays⟩

/-- The matched issues of a kind are the pairs that join it with the same kind on the server. -/
theorem IsMatching.countP_isMatched :
    pairs.countP (fun pair => reads ruleKey message pair.1 && isMatched pair) =
      paired known pairs (reads ruleKey message) (knownAs ruleKey message) :=
  List.countP_congr fun _ member =>
    Bool.eq_iff_iff.mp (matching.reads_and_isMatched ruleKey message member)

/-- The unmoved issues of a kind are the pairs that join it with the same kind on the server, line
included. -/
theorem IsMatching.countP_isUnmoved :
    pairs.countP (fun pair => readsAt ruleKey line message pair.1 && isUnmoved known pair) =
      paired known pairs (readsAt ruleKey line message) (knownAt ruleKey line message) :=
  List.countP_congr fun _ member =>
    Bool.eq_iff_iff.mp (matching.readsAt_and_isUnmoved ruleKey line message member)

end Kinds

/-! ## Classes -/

/-- Where no class has more, there are no more in all. -/
theorem countP_le_of_classes {α κ : Type} [DecidableEq κ] (key : α → κ) {p q : α → Bool}
    {left right : List α}
    (fewer : ∀ k, left.countP (fun item => decide (key item = k) && p item) ≤
      right.countP (fun item => decide (key item = k) && q item)) :
    left.countP p ≤ right.countP q := by
  have counted : ∀ (items : List α) (p : α → Bool) (k : κ),
      ((items.filter p).map key).count k =
        items.countP fun item => decide (key item = k) && p item := by
    intro items p k
    rw [List.count_eq_countP, List.countP_map, List.countP_filter]
    rfl
  have contained : ((left.filter p).map key).Subperm ((right.filter q).map key) := by
    apply List.subperm_ext_iff.mpr
    intro k _
    rw [counted, counted]
    exact fewer k
  have shorter := contained.length_le
  rw [List.length_map, List.length_map] at shorter
  rwa [List.countP_eq_length_filter, List.countP_eq_length_filter]

end IssueRelay.Tracking
