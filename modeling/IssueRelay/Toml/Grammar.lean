import IssueRelay.Toml.Quoted
import IssueRelay.Toml.Scalar
import IssueRelay.Toml.Tree

/-!
# Keys, values and statements in TOML

A document is a sequence of statements, one to a line: headers of tables and of rows of arrays of
tables, and assignments. Arrays may go over several lines and end in a comma; inline tables may do
neither. Brackets may be nested to a depth of 79, and keys may have as many parts.
-/

namespace IssueRelay.Toml

/-- A statement of a document. -/
inductive Statement
  | header (path : List String)
  | row (path : List String)
  | assignment (parts : List String) (value : Value)
  deriving Repr

/-- A reader of the front of a text: what it says, and what follows it. -/
abbrev Front (α : Type) :=
  List Char → Option (α × List Char)

/-- How deep brackets may be nested, and how many parts a key may have. -/
def depthLimit : Nat :=
  79

/-- The characters of keys without quotes. -/
def isKeyChar (char : Char) : Bool :=
  char.isAlphanum || char = '_' || char = '-'

/-- One part of a key. -/
def part? (chars : List Char) : Option (String × List Char) :=
  match chars with
  | '"' :: _ | '\'' :: _ =>
    (Quoted.line? chars).map fun (content, rest) => (String.ofList content, rest)
  | _ =>
    let (front, rest) := chars.span isKeyChar
    if front.isEmpty then none else some (String.ofList front, rest)

/-- The parts of a key, which dots part. The number bounds how many there may be. -/
def parts? : Nat → Front (List String)
  | 0, _ => none
  | bound + 1, chars => do
    let (first, rest) ← part? (skipGap chars)
    match skipGap rest with
    | '.' :: rest =>
      let (others, rest) ← parts? bound rest
      return (first :: others, rest)
    | rest => return ([first], rest)

/-- A key. -/
def key? : Front (List String) :=
  parts? depthLimit

/-- An assignment up to the end of its value. -/
def assignment? (value? : Front Value) : Front (List String × Value) := fun chars => do
  let (parts, rest) ← key? chars
  let (value, rest) ← value? (skipGap (← after? '=' rest))
  return ((parts, value), rest)

/-- The items of an array and its end; the number bounds how many there may be. -/
def items? (value? : Front Value) : Nat → Front (List Value)
  | 0, _ => none
  | bound + 1, chars =>
    match skipFiller false chars with
    | ']' :: rest => some ([], rest)
    | chars => do
      let (first, rest) ← value? chars
      match skipFiller false rest with
      | ',' :: rest =>
        let (others, rest) ← items? value? bound rest
        return (first :: others, rest)
      | ']' :: rest => return ([first], rest)
      | _ => none

/-- The assignments of an inline table and its end; the number bounds how many there may be. -/
def pairs? (value? : Front Value) : Nat → Front (List (List String × Value))
  | 0, _ => none
  | bound + 1, chars => do
    let (first, rest) ← assignment? value? chars
    match skipGap rest with
    | ',' :: rest =>
      let (others, rest) ← pairs? value? bound rest
      return (first :: others, rest)
    | '}' :: rest => return ([first], rest)
    | _ => none

/-- An inline table after its opening brace. -/
def inlineTable? (value? : Front Value) : Front Value := fun chars => do
  let (pairs, rest) ← match skipGap chars with
    | '}' :: rest => some ([], rest)
    | chars => pairs? value? (chars.length + 1) chars
  return (.table (Node.entryValues (← Entries.ofPairs? pairs)), rest)

/-- A string as a value. -/
def textValue? : Front Value := fun chars =>
  (Quoted.read? chars).map fun (content, rest) => (.text (String.ofList content), rest)

/-- A value, with brackets nested to the given depth. -/
def valueWithin? : Nat → Front Value
  | _, '"' :: rest => textValue? ('"' :: rest)
  | _, '\'' :: rest => textValue? ('\'' :: rest)
  | depth + 1, '[' :: rest =>
    (items? (valueWithin? depth) (rest.length + 1) rest).map fun (items, rest) =>
      (.array items, rest)
  | depth + 1, '{' :: rest => inlineTable? (valueWithin? depth) rest
  | _, chars => bare? chars

/-- A value. -/
def value? : Front Value :=
  valueWithin? depthLimit

/-- A statement up to the end of its line. -/
def statement? : Front Statement
  | '[' :: '[' :: chars => do
    let (path, rest) ← key? chars
    return (.row path, ← after? ']' (← after? ']' rest))
  | '[' :: chars => do
    let (path, rest) ← key? chars
    return (.header path, ← after? ']' rest)
  | chars => do
    let ((parts, value), rest) ← assignment? value? chars
    return (.assignment parts value, rest)

/-- The statements of a text; the number bounds how many lines it may have. -/
def statementsWithin? : Nat → List Char → Option (List Statement)
  | 0, _ => none
  | bound + 1, chars =>
    match skipFiller false chars with
    | [] => some []
    | chars => do
      let (first, rest) ← statement? chars
      return first :: (← statementsWithin? bound (← endLine? rest))

/-- The statements of a text. -/
def statements? (chars : List Char) : Option (List Statement) :=
  statementsWithin? (chars.length + 1) chars

end IssueRelay.Toml
