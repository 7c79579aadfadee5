import IssueRelay.Json.Value

/-!
# Records in JSON

A record is written as an object whose members are its fields, or as an array of its fields in the
order of their declaration. An object may hold members that are no fields of the record, and they
count for nothing; a field given twice, or a name that spells no text, is an error. An array may
leave out trailing fields down to a least length and may not hold more than the fields.
-/

namespace IssueRelay.Json

/-- Reads a value of one type. -/
abbrev Reader (α : Type) := Json → Option α

/-- What is written for the fields of a record, by name. -/
abbrev Fields := String → Option Json

/-- The members of an object under names that spell texts. -/
def namedMembers? (members : List (Option String × Json)) : Option (List (String × Json)) :=
  members.mapM fun member => member.1.map (·, member.2)

/-- The fields of a record with the field names `names`, whose array form holds at least `least`
of them. -/
def fields? (names : List String) (least : Nat) : Reader Fields
  | .obj members => do
    let named ← namedMembers? members
    if names.all fun name => (named.map Prod.fst).count name ≤ 1 then
      some fun name => List.lookup name named
    else none
  | .arr items =>
    if least ≤ items.length ∧ items.length ≤ names.length then
      some fun name => List.lookup name (names.zip items)
    else none
  | _ => none

/-- A text. -/
def text? : Reader String
  | .str content => content
  | _ => none

/-- A truth value. -/
def truth? : Reader Bool
  | .bool value => some value
  | _ => none

/-- A whole number between bounds, the upper one excluded. -/
def intBetween? (low high : Int) : Reader Int
  | .int value => if low ≤ value ∧ value < high then some value else none
  | _ => none

/-- A natural number of 32 bits. -/
def word32? (json : Json) : Option UInt32 :=
  (intBetween? 0 UInt32.size json).map fun value => UInt32.ofNat value.toNat

/-- A whole number of 32 bits with sign. -/
def int32? (json : Json) : Option Int32 :=
  (intBetween? (-0x80000000) 0x80000000 json).map Int32.ofInt

/-- A list of values. -/
def list? {α : Type} (read : Reader α) : Reader (List α)
  | .arr items => items.mapM read
  | _ => none

/-- A value or null. -/
def nullable? {α : Type} (read : Reader α) : Reader (Option α)
  | .null => some none
  | json => (read json).map some

/-- A field that has to be there. -/
def required? {α : Type} (read : Reader α) (field : Option Json) : Option α :=
  field.bind read

/-- A field with a default for when it is left out. -/
def default? {α : Type} (absent : α) (read : Reader α) : Option Json → Option α
  | none => some absent
  | some json => read json

/-- A field that may be left out or null. -/
def option? {α : Type} (read : Reader α) : Option Json → Option (Option α) :=
  default? none (nullable? read)

end IssueRelay.Json
