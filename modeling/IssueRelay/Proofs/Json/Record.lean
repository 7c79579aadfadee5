import Mathlib.Data.List.Forall2
import Mathlib.Data.List.Nodup
import IssueRelay.Issue.Record

/-!
# Reading what was written

The readers of texts, numbers, lists and values that may be null give back what was written, and
the fields of a written record are its members (`IssueRelay.Json.fields?_record`).
-/

namespace IssueRelay.Json

/-- Reading a list reads each of its items. -/
theorem mapM_eq_some_iff {α β : Type} {read : α → Option β} {items : List α} {values : List β} :
    items.mapM read = some values ↔
      List.Forall₂ (fun item value => read item = some value) items values := by
  induction items generalizing values with
  | nil => cases values <;> simp
  | cons item items ih =>
    rw [List.mapM_cons, List.forall₂_cons_left_iff]
    simp only [Option.bind_eq_bind, Option.bind_eq_some_iff, Option.pure_def, Option.some.injEq, ih]
    constructor
    · rintro ⟨value, first, rest, others, rfl⟩
      exact ⟨value, rest, first, others, rfl⟩
    · rintro ⟨value, rest, first, others, rfl⟩
      exact ⟨value, first, rest, others, rfl⟩

@[simp] theorem namedMembers?_map_some (named : List (String × Json)) :
    namedMembers? (named.map fun member => (some member.1, member.2)) = some named :=
  mapM_eq_some_iff.mpr (List.forall₂_map_left_iff.mpr (List.forall₂_same.mpr fun _ _ => rfl))

/-- The fields of a written record are its members, whatever names are asked for. -/
theorem fields?_record {names : List String} {least : Nat} {members : List (String × Json)}
    (distinct : (members.map Prod.fst).Nodup) :
    fields? names least (.record members) = some fun name => members.lookup name := by
  have once : names.all fun name => (members.map Prod.fst).count name ≤ 1 := by
    simp [List.nodup_iff_count_le_one.mp distinct]
  rw [record, fields?, namedMembers?_map_some]
  exact if_pos once

@[simp] theorem text?_text (content : String) : text? (.text content) = some content :=
  rfl

/-- Only a text reads as a text. -/
theorem text?_eq_some_iff {json : Json} {content : String} :
    text? json = some content ↔ json = .text content := by
  cases json <;> simp [text?]

@[simp] theorem truth?_bool (value : Bool) : truth? (.bool value) = some value :=
  rfl

@[simp] theorem word32?_ofWord (value : UInt32) : word32? (.ofWord value) = some value := by
  have bounded : (0 : Int) ≤ value.toNat ∧ (value.toNat : Int) < UInt32.size :=
    ⟨Int.natCast_nonneg _, Int.ofNat_lt.mpr value.toNat_lt⟩
  simp only [word32?, ofWord, intBetween?, if_pos bounded, Option.map_some, Int.toNat_natCast,
    UInt32.ofNat_toNat]

section

variable {α : Type} {read : Reader α} {write : α → Json}

/-- A list whose values come back comes back. -/
theorem list?_ofList {values : List α} (back : ∀ value ∈ values, read (write value) = some value) :
    list? read (.ofList write values) = some values := by
  exact mapM_eq_some_iff.mpr (List.forall₂_map_left_iff.mpr (List.forall₂_same.mpr back))

/-- A value may be null where it is never written as null. -/
theorem nullable?_orNull {value : Option α} (solid : ∀ value, write value ≠ .null)
    (back : ∀ given ∈ value, read (write given) = some given) :
    nullable? read (.orNull (value.map write)) = some value := by
  cases value with
  | none => rfl
  | some given =>
    have same := back given rfl
    have some := solid given
    cases written : write given <;> simp_all [nullable?, orNull]

/-- A field that is there is read, whether or not it has to be. -/
theorem required?_of_eq {field : Option Json} {json : Json} {value : α}
    (present : field = some json) (back : read json = some value) :
    required? read field = some value := by
  rw [present, required?, Option.bind_some, back]

/-- A field that is there is read, whatever its default. -/
theorem default?_of_eq {absent : α} {field : Option Json} {json : Json} {value : α}
    (present : field = some json) (back : read json = some value) :
    default? absent read field = some value := by
  rw [present, default?, back]

end

end IssueRelay.Json
