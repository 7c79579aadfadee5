import IssueRelay.Json.Token
import IssueRelay.Json.Value

/-!
# Reading JSON texts

A push-down machine over tokens: it holds the arrays and objects that are still open, innermost
first, and what may come next. It takes one token at a time, so a text may be nested to any depth.
-/

namespace IssueRelay.Json

/-- An array or object whose end is still to come, with what it holds so far, latest first. -/
inductive Frame
  | items (before : List Json)
  | member (before : List (Option String × Json)) (name : Option String)

/-- What a text may go on with. -/
inductive Awaiting
  | value
  | itemOrEnd
  | nameOrEnd
  | name (before : List (Option String × Json))
  | colon (before : List (Option String × Json)) (name : Option String)
  | delimiter (value : Json)

/-- A text read halfway. -/
structure Reading where
  awaiting : Awaiting
  enclosing : List Frame

namespace Reading

/-- The value that a token is on its own. -/
def scalar? : Token → Option Json
  | .null => some .null
  | .bool value => some (.bool value)
  | .int value => some (.int value)
  | .real literal => some (.real literal)
  | .str content => some (.str content)
  | _ => none

/-- A value begins. -/
def begin? (enclosing : List Frame) : Token → Option Reading
  | .leftBracket => some ⟨.itemOrEnd, .items [] :: enclosing⟩
  | .leftBrace => some ⟨.nameOrEnd, enclosing⟩
  | token => (scalar? token).map (⟨.delimiter ·, enclosing⟩)

/-- A value is complete, and a comma or the end of what encloses it follows. -/
def continue? (value : Json) : Token → List Frame → Option Reading
  | .comma, .items before :: outer => some ⟨.value, .items (value :: before) :: outer⟩
  | .comma, .member before name :: outer => some ⟨.name ((name, value) :: before), outer⟩
  | .rightBracket, .items before :: outer =>
    some ⟨.delimiter (.arr (value :: before).reverse), outer⟩
  | .rightBrace, .member before name :: outer =>
    some ⟨.delimiter (.obj ((name, value) :: before).reverse), outer⟩
  | _, _ => none

/-- What a text is after one more token. -/
def step? (reading : Reading) (token : Token) : Option Reading :=
  match reading.awaiting, token with
  | .value, token => begin? reading.enclosing token
  | .itemOrEnd, .rightBracket => some ⟨.delimiter (.arr []), reading.enclosing.drop 1⟩
  | .itemOrEnd, token => begin? reading.enclosing token
  | .nameOrEnd, .rightBrace => some ⟨.delimiter (.obj []), reading.enclosing⟩
  | .nameOrEnd, .str name => some ⟨.colon [] name, reading.enclosing⟩
  | .name before, .str name => some ⟨.colon before name, reading.enclosing⟩
  | .colon before name, .colon => some ⟨.value, .member before name :: reading.enclosing⟩
  | .delimiter value, token => continue? value token reading.enclosing
  | _, _ => none

/-- The value read, if the text may end here. -/
def end? : Reading → Option Json
  | ⟨.delimiter value, []⟩ => some value
  | _ => none

end Reading

/-- The value that tokens spell. -/
def ofTokens? (tokens : List Token) : Option Json := do
  (← tokens.foldlM Reading.step? ⟨.value, []⟩).end?

/-- The value that octets spell, with nothing but blanks around it. -/
def parse? (octets : Octets) : Option Json := do
  ofTokens? (← Token.scan octets)

/-- The value that a text spells. -/
def parseText? (text : String) : Option Json :=
  parse? (Utf8.encode text)

end IssueRelay.Json
