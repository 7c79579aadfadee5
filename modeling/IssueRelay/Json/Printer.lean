import IssueRelay.Json.Value
import IssueRelay.Text.Percent

/-!
# Writing JSON texts

The compact form: no blanks, members in their order, characters as themselves except for quotes,
backslashes and the controls below U+0020.
-/

namespace IssueRelay.Json

/-- A character inside a string. -/
def escapeChar (char : Char) : List Char :=
  if char = '"' then ['\\', '"']
  else if char = '\\' then ['\\', '\\']
  else if char.toNat < 0x20 then
    ['\\', 'u', '0', '0', Percent.hexDigit (char.toNat / 16), Percent.hexDigit (char.toNat % 16)]
  else [char]

/-- A text as a string, quotes included. -/
def quote (text : String) : String :=
  String.ofList ('"' :: text.toList.flatMap escapeChar ++ ['"'])

mutual

/-- A value in compact form. A string that spells no text is written as the empty one. -/
def render : Json → String
  | .null => "null"
  | .bool true => "true"
  | .bool false => "false"
  | .int value => toString value
  | .real literal => literal
  | .str content => quote (content.getD "")
  | .arr items => "[" ++ ",".intercalate (renderItems items) ++ "]"
  | .obj members => "\x7b" ++ ",".intercalate (renderMembers members) ++ "\x7d"

/-- The items of an array, each in compact form. -/
def renderItems : List Json → List String
  | [] => []
  | item :: rest => render item :: renderItems rest

/-- The members of an object, each in compact form. -/
def renderMembers : List (Option String × Json) → List String
  | [] => []
  | (name, value) :: rest => (quote (name.getD "") ++ ":" ++ render value) :: renderMembers rest

end

end IssueRelay.Json
