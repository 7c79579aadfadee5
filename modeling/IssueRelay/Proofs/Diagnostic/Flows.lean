import IssueRelay.Diagnostic.OfIssues
import Mathlib.Algebra.Order.BigOperators.Group.List
import Mathlib.Algebra.Order.Group.Nat

/-!
# What flows come to

The displayed message of an issue ends in a count of what its flows hold, and its diagnostic lists
the places that they pass. One rule says what is counted: the locations of all flows, if there is
one flow or each flow is a single location, and else the flows. The places follow the flows and
their locations in order; of a location without a range there is nothing to show, so there may be
fewer places than locations, but never more (`IssueRelay.flows_come_to`).
-/

namespace IssueRelay

namespace Flow

variable {flows : List Flow}

/-- How many locations flows have in all. -/
def locationCount (flows : List Flow) : Nat :=
  (flows.flatMap Flow.locations).length

/-- Whether there is nothing to count: no flow, or a single one without locations. -/
def HoldNothing (flows : List Flow) : Prop :=
  flows = [] ∨ ∃ flow, flows = [flow] ∧ flow.locations = []

/-- Whether the locations are counted and not the flows: there is one flow, or each flow is a single
location. -/
def CountAsLocations (flows : List Flow) : Prop :=
  flows.length = 1 ∨ ∀ flow ∈ flows, flow.locations.length = 1

/-- Flows of a single location each are as many as their locations. -/
theorem locationCount_of_single (single : ∀ flow ∈ flows, flow.locations.length = 1) :
    locationCount flows = flows.length := by
  rw [locationCount, List.length_flatMap, List.map_congr_left single]
  simp

/-- The location at a place: the number of a flow, and that of a location in it. -/
def locationAt? (flows : List Flow) (place : Nat × Nat) : Option Location :=
  flows[place.1]?.bind fun flow => flow.locations[place.2]?

/-- A location stands at a place if it has that number in the flow of that number. -/
theorem locationAt?_eq_some_iff {place : Nat × Nat} {location : Location} :
    locationAt? flows place = some location ↔
      ∃ flow, flows[place.1]? = some flow ∧ flow.locations[place.2]? = some location :=
  Option.bind_eq_some_iff

end Flow

open IssueRelay.Flow

variable {message : String} {flows : List Flow}

/-! ## The count -/

/-- What a message ends in when there is something to count. -/
def countSuffix (count : Nat) (item : String) : String :=
  if count = 1 then " (1 " ++ item ++ ")" else " (" ++ toString count ++ " " ++ item ++ "s)"

/-- A count other than zero is told in a suffix. -/
theorem withCount_of_pos {count : Nat} (present : count ≠ 0) (item : String) :
    withCount message count item = message ++ countSuffix count item := by
  rw [withCount, if_neg present, countSuffix, pluralize]
  split
  case isTrue one =>
    subst one
    simp only [String.append_assoc]
    rfl
  case isFalse =>
    simp only [String.append_assoc]
    rfl

/-- With a suffix the message is another one. -/
theorem append_countSuffix_ne (count : Nat) (item : String) :
    message ++ countSuffix count item ≠ message := by
  intro same
  have texts := congrArg String.toList same
  rw [String.toList_append] at texts
  have empty := List.self_eq_append_right.mp texts.symm
  rw [countSuffix] at empty
  split at empty <;> simp at empty

/-- Several flows count as locations only if each is a single one. -/
theorem flowMessage_cons_cons (first second : Flow) (rest : List Flow) :
    flowMessage message (first :: second :: rest) =
      if (first :: second :: rest).all fun flow => flow.locations.length = 1 then
        withCount message (first :: second :: rest).length "location"
      else withCount message (first :: second :: rest).length "flow" :=
  rfl

/-- Where the locations count, the message tells how many there are. -/
theorem flowMessage_of_countAsLocations (counted : CountAsLocations flows) :
    flowMessage message flows = withCount message (locationCount flows) "location" := by
  match flows with
  | [] => rfl
  | [flow] =>
      rw [locationCount, List.flatMap_singleton]
      rfl
  | first :: second :: rest =>
      have single : ∀ flow ∈ first :: second :: rest, flow.locations.length = 1 :=
        counted.resolve_left (by simp)
      have all : (first :: second :: rest).all fun flow => flow.locations.length = 1 := by
        simpa using single
      rw [flowMessage_cons_cons, if_pos all, locationCount_of_single single]

/-- Everywhere else the message tells how many flows there are. -/
theorem flowMessage_of_not_countAsLocations (counted : ¬CountAsLocations flows) :
    flowMessage message flows = withCount message flows.length "flow" := by
  match flows with
  | [] => exact absurd (.inr (by simp)) counted
  | [flow] => exact absurd (.inl rfl) counted
  | first :: second :: rest =>
      have several : ¬(first :: second :: rest).all fun flow => flow.locations.length = 1 := by
        intro all
        exact counted (.inr (by simpa using all))
      rw [flowMessage_cons_cons, if_neg several]

/-- Locations that are counted come to nothing only if there is nothing to count. -/
theorem locationCount_eq_zero_iff (counted : CountAsLocations flows) :
    locationCount flows = 0 ↔ HoldNothing flows := by
  rcases counted with one | single
  · obtain ⟨flow, rfl⟩ := List.length_eq_one_iff.mp one
    simp [locationCount, HoldNothing]
  · rw [locationCount_of_single single, List.length_eq_zero_iff]
    constructor
    · exact .inl
    · rintro (nothing | ⟨flow, rfl, empty⟩)
      · exact nothing
      · have present := single flow List.mem_cons_self
        rw [empty] at present
        cases present

/-- Where there is nothing to count, it is locations that there are none of. -/
theorem countAsLocations_of_holdNothing (nothing : HoldNothing flows) : CountAsLocations flows := by
  rcases nothing with rfl | ⟨flow, rfl, _⟩
  · exact .inr (by simp)
  · exact .inl rfl

/-- Where there is nothing to count, the message is as it was. -/
theorem flowMessage_of_holdNothing (nothing : HoldNothing flows) :
    flowMessage message flows = message := by
  have counted := countAsLocations_of_holdNothing nothing
  rw [flowMessage_of_countAsLocations counted, (locationCount_eq_zero_iff counted).mpr nothing,
    withCount, if_pos rfl]

/-- What a message ends in follows one rule: all locations are counted, or the flows. -/
theorem flowMessage_of_not_holdNothing (message : String) (present : ¬HoldNothing flows) :
    (CountAsLocations flows →
      flowMessage message flows = message ++ countSuffix (locationCount flows) "location") ∧
    (¬CountAsLocations flows →
      flowMessage message flows = message ++ countSuffix flows.length "flow") := by
  constructor
  · intro counted
    rw [flowMessage_of_countAsLocations counted]
    exact withCount_of_pos (mt (locationCount_eq_zero_iff counted).mp present) _
  · intro counted
    rw [flowMessage_of_not_countAsLocations counted]
    refine withCount_of_pos (fun none => present (.inl ?_)) _
    exact List.length_eq_zero_iff.mp none

/-- The message is as it was only where there is nothing to count. -/
theorem flowMessage_eq_iff : flowMessage message flows = message ↔ HoldNothing flows := by
  refine ⟨fun same => ?_, flowMessage_of_holdNothing⟩
  by_contra present
  have suffixed := flowMessage_of_not_holdNothing message present
  by_cases counted : CountAsLocations flows
  · exact append_countSuffix_ne _ _ ((suffixed.1 counted).symm.trans same)
  · exact append_countSuffix_ne _ _ ((suffixed.2 counted).symm.trans same)

/-! ## The places -/

variable {uri : Url}

/-- Whether a related place shows a location: its range in a file, and what it says. -/
def RelatedPlace.Shows (uri : Url) (related : RelatedPlace) (location : Location) : Prop :=
  ∃ range, location.range = some range ∧
    related = { uri, span := range.span, message := location.message.getD "" }

/-- Whether a place among flows stands before another: in an earlier flow, or earlier in the same
one. -/
def StandsBefore (left right : Nat × Nat) : Prop :=
  left.1 < right.1 ∨ left.1 = right.1 ∧ left.2 < right.2

/-- The related places of a file together with where they stand among flows. -/
structure PassedBy (uri : Url) (flows : List Flow)
    (standing : List ((Nat × Nat) × RelatedPlace)) : Prop where
  /-- They stand in order, so none stands in two places at once. -/
  inOrder : standing.Pairwise fun left right => StandsBefore left.1 right.1
  /-- They are those of the locations with a range. -/
  shows : ∀ place related, (place, related) ∈ standing ↔
    ∃ location, locationAt? flows place = some location ∧ related.Shows uri location

namespace Diagnostic

/-- A location has a related place exactly if it has a range, and that place shows it. -/
theorem relatedPlace?_eq_some_iff {location : Location} {related : RelatedPlace} :
    relatedPlace? uri location = some related ↔ related.Shows uri location := by
  rw [relatedPlace?, Option.map_eq_some_iff, RelatedPlace.Shows]
  simp only [eq_comm]

/-- The places that flows pass, with where they stand. -/
def standingPlaces (uri : Url) (flows : List Flow) : List ((Nat × Nat) × RelatedPlace) :=
  flows.zipIdx.flatMap fun (flow, row) => flow.locations.zipIdx.filterMap fun (location, column) =>
    (relatedPlace? uri location).map fun related => ((row, column), related)

/-- Numbering a list numbers it upwards. -/
private theorem pairwise_zipIdx {α : Type} (list : List α) :
    list.zipIdx.Pairwise fun left right => left.2 < right.2 := by
  have places : (list.zipIdx.map Prod.snd).Pairwise (· < ·) := by
    rw [List.zipIdx_map_snd]
    exact List.pairwise_lt_range'
  exact List.pairwise_map.mp places

/-- The places that flows pass are those of their locations with a range. -/
theorem mem_standingPlaces {place : Nat × Nat} {related : RelatedPlace} :
    (place, related) ∈ standingPlaces uri flows ↔
      ∃ location, locationAt? flows place = some location ∧ related.Shows uri location := by
  simp only [standingPlaces, List.mem_flatMap, List.mem_filterMap, Option.map_eq_some_iff,
    Prod.exists, List.mk_mem_zipIdx_iff_getElem?, locationAt?_eq_some_iff,
    ← relatedPlace?_eq_some_iff, Prod.mk.injEq]
  constructor
  · rintro ⟨flow, row, inRow, location, column, inColumn, _, shown, rfl, rfl⟩
    exact ⟨location, ⟨flow, inRow, inColumn⟩, shown⟩
  · rintro ⟨location, ⟨flow, inRow, inColumn⟩, shown⟩
    exact ⟨flow, _, inRow, location, _, inColumn, _, shown, rfl, rfl⟩

/-- The places that flows pass are listed as they stand: flow by flow, and in each from its
beginning. -/
theorem pairwise_standingPlaces (uri : Url) (flows : List Flow) :
    (standingPlaces uri flows).Pairwise fun left right => StandsBefore left.1 right.1 := by
  rw [standingPlaces, List.pairwise_flatMap]
  constructor
  · rintro ⟨flow, row⟩ _
    rw [List.pairwise_filterMap]
    refine (pairwise_zipIdx flow.locations).imp ?_
    rintro ⟨_, left⟩ ⟨_, right⟩ before _ first _ second
    obtain ⟨_, _, rfl⟩ := Option.map_eq_some_iff.mp first
    obtain ⟨_, _, rfl⟩ := Option.map_eq_some_iff.mp second
    exact .inr ⟨rfl, before⟩
  · refine (pairwise_zipIdx flows).imp ?_
    rintro ⟨_, left⟩ ⟨_, right⟩ before _ first _ second
    obtain ⟨_, _, shown⟩ := List.mem_filterMap.mp first
    obtain ⟨_, _, rfl⟩ := Option.map_eq_some_iff.mp shown
    obtain ⟨_, _, shown⟩ := List.mem_filterMap.mp second
    obtain ⟨_, _, rfl⟩ := Option.map_eq_some_iff.mp shown
    exact .inl before

/-- The standing places are the related places together with where they stand. -/
theorem passedBy_standingPlaces (uri : Url) (flows : List Flow) :
    PassedBy uri flows (standingPlaces uri flows) :=
  ⟨pairwise_standingPlaces uri flows, fun _ _ => mem_standingPlaces⟩

/-- The related places of a diagnostic, none if they are absent. -/
theorem getD_relatedPlaces (uri : Url) (flows : List Flow) :
    (relatedPlaces uri flows).getD [] =
      flows.flatMap fun flow => flow.locations.filterMap (relatedPlace? uri) := by
  rw [relatedPlaces]
  split
  case h_1 absent => exact absent.symm
  case h_2 => rfl

/-- Without where they stand, they are the related places of the diagnostic. -/
theorem map_snd_standingPlaces (uri : Url) (flows : List Flow) :
    (standingPlaces uri flows).map Prod.snd = (relatedPlaces uri flows).getD [] := by
  have shown (locations : List Location) (row : Nat) :
      (locations.zipIdx.filterMap fun (location, column) =>
        (relatedPlace? uri location).map fun related => ((row, column), related)).map Prod.snd =
        locations.filterMap (relatedPlace? uri) := by
    rw [List.map_filterMap]
    simp only [Option.map_map, Function.comp_def, Option.map_id']
    conv_rhs => rw [← List.zipIdx_map_fst 0 locations, List.filterMap_map]
    rfl
  rw [standingPlaces, List.map_flatMap, getD_relatedPlaces]
  conv_rhs => rw [← List.zipIdx_map_fst 0 flows, List.flatMap_map]
  exact List.flatMap_congr fun ⟨flow, row⟩ _ => shown flow.locations row

/-- There are related places exactly if some location has a range. -/
theorem relatedPlaces_eq_none_iff :
    relatedPlaces uri flows = none ↔
      ∀ flow ∈ flows, ∀ location ∈ flow.locations, location.range = none := by
  have listed := getD_relatedPlaces uri flows
  have empty : relatedPlaces uri flows = none ↔ (relatedPlaces uri flows).getD [] = [] := by
    rw [relatedPlaces]
    split
    case h_1 => simp
    case h_2 present => simpa using present
  rw [empty, listed, List.flatMap_eq_nil_iff]
  simp only [List.filterMap_eq_nil_iff, relatedPlace?, Option.map_eq_none_iff]

/-- There are no more related places than locations. -/
theorem length_relatedPlaces_le (uri : Url) (flows : List Flow) :
    ((relatedPlaces uri flows).getD []).length ≤ locationCount flows := by
  rw [getD_relatedPlaces, locationCount, List.length_flatMap, List.length_flatMap]
  exact List.sum_le_sum fun flow _ => List.length_filterMap_le _ _

end Diagnostic

/-- **What flows come to.** A displayed message ends in no count exactly if there is no flow or a
single one without locations. Otherwise it ends in one, in the singular exactly if it is one: of
the locations of all flows, if there is one flow or each flow is a single location, and else of the
flows. The related places are those of the locations with a range, one for each, in the order of
the flows and of the locations in a flow, and absent exactly if no location has a range; so there
are no more of them than a count of locations says. -/
theorem flows_come_to (message : String) (uri : Url) (flows : List Flow) :
    (flowMessage message flows = message ↔ HoldNothing flows) ∧
      (¬HoldNothing flows →
        (CountAsLocations flows →
          flowMessage message flows = message ++ countSuffix (locationCount flows) "location") ∧
        (¬CountAsLocations flows →
          flowMessage message flows = message ++ countSuffix flows.length "flow")) ∧
      (∃ standing, PassedBy uri flows standing ∧
        standing.map Prod.snd = (Diagnostic.relatedPlaces uri flows).getD []) ∧
      (Diagnostic.relatedPlaces uri flows = none ↔
        ∀ flow ∈ flows, ∀ location ∈ flow.locations, location.range = none) ∧
      (CountAsLocations flows →
        ((Diagnostic.relatedPlaces uri flows).getD []).length ≤ locationCount flows) := by
  refine ⟨flowMessage_eq_iff, flowMessage_of_not_holdNothing message, ?standing,
    Diagnostic.relatedPlaces_eq_none_iff, fun _ => Diagnostic.length_relatedPlaces_le uri flows⟩
  exact ⟨Diagnostic.standingPlaces uri flows, Diagnostic.passedBy_standingPlaces uri flows,
    Diagnostic.map_snd_standingPlaces uri flows⟩

-- Of several flows the empty ones count, too.
example : flowMessage "Injection" [⟨[]⟩, ⟨[⟨none, none⟩]⟩] = "Injection (2 flows)" := by
  decide +kernel

end IssueRelay
