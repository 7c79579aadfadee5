/-!
# Dictionaries

Values under keys, at most one under each. Every operation is pinned down by what `get?` says
afterwards about the key it concerns and about any other.
-/

namespace IssueRelay

/-- Values under keys, as the pairs put in, the latest first. -/
structure Dictionary (κ α : Type) where
  entries : List (κ × α)
  deriving Repr

namespace Dictionary

variable {κ α : Type} [DecidableEq κ]

/-- The dictionary without values. -/
def empty : Dictionary κ α :=
  ⟨[]⟩

instance : EmptyCollection (Dictionary κ α) :=
  ⟨empty⟩

instance : Inhabited (Dictionary κ α) :=
  ⟨empty⟩

/-- The value under a key. -/
def get? (dictionary : Dictionary κ α) (key : κ) : Option α :=
  (dictionary.entries.find? fun entry => entry.1 = key).map Prod.snd

/-- Whether there is a value under a key. -/
def contains (dictionary : Dictionary κ α) (key : κ) : Bool :=
  (dictionary.get? key).isSome

/-- Takes out the value under a key. -/
def erase (dictionary : Dictionary κ α) (key : κ) : Dictionary κ α :=
  ⟨dictionary.entries.filter fun entry => entry.1 ≠ key⟩

/-- Puts a value under a key, in the place of any other. -/
def insert (dictionary : Dictionary κ α) (key : κ) (value : α) : Dictionary κ α :=
  ⟨(key, value) :: (dictionary.erase key).entries⟩

@[simp] theorem get?_empty (key : κ) : (∅ : Dictionary κ α).get? key = none := rfl

/-- There is nothing under a key that has been erased. -/
@[simp] theorem get?_erase_self (dictionary : Dictionary κ α) (key : κ) :
    (dictionary.erase key).get? key = none := by
  simp [get?, erase, List.find?_filter]

/-- Erasing one key leaves the values under all others. -/
theorem get?_erase_of_ne (dictionary : Dictionary κ α) {key other : κ} (different : other ≠ key) :
    (dictionary.erase key).get? other = dictionary.get? other := by
  unfold get? erase
  rw [List.find?_filter]
  congr 2
  funext entry
  by_cases same : entry.1 = other
  · simp [same, different]
  · simp [same]

/-- Under a key is what was inserted there last. -/
@[simp] theorem get?_insert_self (dictionary : Dictionary κ α) (key : κ) (value : α) :
    (dictionary.insert key value).get? key = some value := by
  simp [get?, insert]

/-- Inserting under one key leaves the values under all others. -/
theorem get?_insert_of_ne (dictionary : Dictionary κ α) {key other : κ} (value : α)
    (different : other ≠ key) :
    (dictionary.insert key value).get? other = dictionary.get? other := by
  rw [← get?_erase_of_ne dictionary different]
  simp [get?, insert, Ne.symm different]

end Dictionary
end IssueRelay
