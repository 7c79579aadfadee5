import IssueRelay.Dictionary
import Mathlib.Data.List.Dedup
import Mathlib.Data.List.Perm.Basic

/-!
# Dictionaries without repeated keys

The operations of a dictionary never put a key in twice, so its entries are what `get?` says of
its keys (`IssueRelay.Dictionary.Distinct.get?_eq_some_iff`), in whatever order they are kept.
-/

namespace IssueRelay.Dictionary

variable {κ α β : Type}

/-- The keys that have a value. -/
def keys (dictionary : Dictionary κ α) : List κ :=
  dictionary.entries.map Prod.fst

/-- No key is put in twice. -/
def Distinct (dictionary : Dictionary κ α) : Prop :=
  dictionary.keys.Nodup

/-- The dictionary with a function of every value in the place of the value. -/
def mapValues (f : α → β) (dictionary : Dictionary κ α) : Dictionary κ β :=
  ⟨dictionary.entries.map fun entry => (entry.1, f entry.2)⟩

variable [DecidableEq κ]

omit [DecidableEq κ] in
/-- The empty dictionary has no key twice. -/
@[simp] theorem distinct_empty : (∅ : Dictionary κ α).Distinct :=
  List.nodup_nil

omit [DecidableEq κ] in
/-- No key is put in twice, in whatever order the entries are kept. -/
theorem Distinct.of_perm {dictionary : Dictionary κ α} (distinct : dictionary.Distinct)
    {entries : List (κ × α)} (permuted : entries.Perm dictionary.entries) :
    (entries.map Prod.fst).Nodup :=
  (permuted.map Prod.fst).nodup_iff.mpr distinct

/-- Erasing leaves every key at most once. -/
theorem Distinct.erase {dictionary : Dictionary κ α} (distinct : dictionary.Distinct) (key : κ) :
    (dictionary.erase key).Distinct :=
  distinct.sublist (List.filter_sublist.map _)

/-- Inserting replaces, so every key is there at most once. -/
theorem Distinct.insert {dictionary : Dictionary κ α} (distinct : dictionary.Distinct) (key : κ)
    (value : α) : (dictionary.insert key value).Distinct := by
  apply List.nodup_cons.mpr
  refine ⟨?_, distinct.erase key⟩
  intro member
  obtain ⟨entry, kept, same⟩ := List.mem_map.mp member
  exact of_decide_eq_true (List.mem_filter.mp kept).2 same

/-- Under each key is the image of what was there. -/
@[simp] theorem get?_mapValues (f : α → β) (dictionary : Dictionary κ α) (key : κ) :
    (dictionary.mapValues f).get? key = (dictionary.get? key).map f := by
  simp [get?, mapValues, List.find?_map, Function.comp_def]

/-- A key has a value exactly if it is among the keys. -/
theorem mem_keys_iff {dictionary : Dictionary κ α} {key : κ} :
    key ∈ dictionary.keys ↔ (dictionary.get? key).isSome := by
  simp [keys, get?, List.find?_isSome]

/-- What is found under a key is one of the entries. -/
theorem mem_entries_of_get? {dictionary : Dictionary κ α} {key : κ} {value : α}
    (found : dictionary.get? key = some value) : (key, value) ∈ dictionary.entries := by
  obtain ⟨entry, first, rfl⟩ := Option.map_eq_some_iff.mp found
  have same : entry.1 = key := by simpa using List.find?_some first
  rw [← same]
  exact List.mem_of_find?_eq_some first

/-- In a dictionary without repeated keys every entry is found. -/
theorem Distinct.get?_eq_some_iff {dictionary : Dictionary κ α} (distinct : dictionary.Distinct)
    {key : κ} {value : α} :
    dictionary.get? key = some value ↔ (key, value) ∈ dictionary.entries := by
  refine ⟨mem_entries_of_get?, fun member => ?_⟩
  have present : key ∈ dictionary.keys := List.mem_map.mpr ⟨_, member, rfl⟩
  obtain ⟨other, found⟩ := Option.isSome_iff_exists.mp (mem_keys_iff.mp present)
  have same := List.inj_on_of_nodup_map distinct (mem_entries_of_get? found) member rfl
  rw [found, (Prod.mk.inj same).2]

/-- Under a key on which two dictionaries agree, they still do when a value is put into both, if it
is the same where it counts. -/
theorem get?_insert_congr {left right : Dictionary κ α} {key : κ}
    (same : left.get? key = right.get? key) {changed : κ} {value other : α}
    (alike : changed = key → value = other) :
    (left.insert changed value).get? key = (right.insert changed other).get? key := by
  by_cases mine : key = changed
  · subst mine
    rw [get?_insert_self, get?_insert_self, alike rfl]
  · rw [get?_insert_of_ne _ _ mine, get?_insert_of_ne _ _ mine, same]

/-- Erasing keeps dictionaries that agree on a key in agreement on it. -/
theorem get?_erase_congr {left right : Dictionary κ α} {key : κ}
    (same : left.get? key = right.get? key) (erased : κ) :
    (left.erase erased).get? key = (right.erase erased).get? key := by
  by_cases mine : key = erased
  · subst mine
    rw [get?_erase_self, get?_erase_self]
  · rw [get?_erase_of_ne _ mine, get?_erase_of_ne _ mine, same]

end IssueRelay.Dictionary
