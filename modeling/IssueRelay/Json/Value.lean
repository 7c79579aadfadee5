/-!
# JSON values as they were written

A value keeps what its reader may need to tell apart: the order and the repetition of the members
of an object, whole numbers from other numerals, and strings that spell no text because an escape
left half of a surrogate pair alone or because their octets are no UTF-8. Such a string is
`.str none`; nothing is wrong with it as long as nobody reads it.
-/

namespace IssueRelay

/-- A JSON value. `int` holds the numerals without fraction and exponent, save `-0`; every other
numeral is a `real`, kept as it was written. -/
inductive Json
  | null
  | bool (value : Bool)
  | int (value : Int)
  | real (literal : String)
  | str (text : Option String)
  | arr (items : List Json)
  | obj (members : List (Option String × Json))
  deriving Repr, Inhabited

namespace Json

/-- The string that spells a text. -/
abbrev text (content : String) : Json :=
  .str (some content)

/-- The object with the given members, in their order. -/
def record (members : List (String × Json)) : Json :=
  .obj (members.map fun member => (some member.1, member.2))

/-- A value that may be missing, written as null when it is. -/
def orNull (value : Option Json) : Json :=
  value.getD .null

/-- The member list with one entry, or with none when there is no value. -/
def optional (name : String) (value : Option Json) : List (String × Json) :=
  value.toList.map (name, ·)

end Json
end IssueRelay
