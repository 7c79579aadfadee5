/-!
# TOML values

What a TOML document says. Numerals other than whole numbers, and points in time, are kept as they
were written.
-/

namespace IssueRelay.Toml

/-- A TOML value. The keys of a table are distinct. -/
inductive Value
  | text (content : String)
  | integer (value : Int)
  | real (literal : String)
  | boolean (value : Bool)
  | moment (literal : String)
  | array (items : List Value)
  | table (entries : List (String × Value))
  deriving Repr, Inhabited

end IssueRelay.Toml
