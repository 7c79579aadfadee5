import IssueRelay.Text.Decimal

/-!
# Issue identifiers

Every reported issue has a number of its own, which travels with its diagnostic as text and comes
back from the editor. It has 64 bits.
-/

namespace IssueRelay

/-- The number of a reported issue. -/
structure IssueId where
  number : UInt64
  deriving DecidableEq, Repr

namespace IssueId

/-- The number in decimal digits. -/
def text (id : IssueId) : String :=
  toString id.number.toNat

/-- The number that a text spells. -/
def ofText (text : String) : Except NumberError IssueId :=
  (Decimal.readBelow UInt64.size text).map fun number => ⟨UInt64.ofNat number⟩

/-- The number that a text spells, if it spells one. -/
def ofText? (text : String) : Option IssueId :=
  (ofText text).toOption

/-- The next number; after the greatest one comes zero. -/
def next (id : IssueId) : IssueId :=
  ⟨id.number + 1⟩

/-- The order of numbers. -/
def le (left right : IssueId) : Bool :=
  left.number ≤ right.number

/-- Every number is read back from its text. -/
@[simp] theorem ofText?_text (id : IssueId) : ofText? id.text = some id := by
  have fits : id.number.toNat < UInt64.size := id.number.toNat_lt_size
  rw [ofText?, ofText, text, Decimal.readBelow_toString fits]
  change some (IssueId.mk (UInt64.ofNat id.number.toNat)) = some id
  rw [UInt64.ofNat_toNat]

end IssueId
end IssueRelay
