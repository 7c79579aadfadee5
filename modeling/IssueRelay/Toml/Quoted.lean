import IssueRelay.Text.Percent
import IssueRelay.Toml.Line

/-!
# Strings in TOML

Four kinds of strings: in double quotes, with escapes, or in single quotes, taken as they stand;
and either of them on one line or, in three quotes, on several. A line end right after three
opening quotes counts for nothing; up to two quotes may stand right before the three closing ones.
A backslash at the end of a line takes out all blanks and line ends that follow.
-/

namespace IssueRelay.Toml.Quoted

/-- A text that has been read, and what follows it. -/
abbrev Result :=
  Option (List Char × List Char)

/-- Puts a character before a text that has been read. -/
def before (char : Char) (result : Result) : Result :=
  result.map fun (content, rest) => (char :: content, rest)

/-- The character that a one-letter escape stands for. -/
def escaped? : Char → Option Char
  | 'b' => some '\x08'
  | 't' => some '\t'
  | 'n' => some '\n'
  | 'f' => some '\x0c'
  | 'r' => some '\r'
  | '"' => some '"'
  | '\\' => some '\\'
  | _ => none

/-- The character with a number that is written in hexadecimal digits. -/
def numbered? (digits : List Char) : Option Char := do
  let values ← digits.mapM Percent.hexValue?
  let scalar := values.foldl (fun value digit => value * 16 + digit) 0
  if scalar.isValidChar then some (Char.ofNat scalar) else none

/-- The rest of a string on one line in double quotes. -/
def basic : List Char → Result
  | '"' :: rest => some ([], rest)
  | '\\' :: 'u' :: a :: b :: c :: d :: rest => do
    before (← numbered? [a, b, c, d]) (basic rest)
  | '\\' :: 'U' :: a :: b :: c :: d :: e :: f :: g :: h :: rest => do
    before (← numbered? [a, b, c, d, e, f, g, h]) (basic rest)
  | '\\' :: char :: rest => do before (← escaped? char) (basic rest)
  | char :: rest => if isPrintable char then before char (basic rest) else none
  | [] => none

/-- The rest of a string on one line in single quotes. -/
def literal : List Char → Result
  | '\'' :: rest => some ([], rest)
  | char :: rest => if isPrintable char then before char (literal rest) else none
  | [] => none

/-- Whether only blanks are left on a line. -/
def endsLine (chars : List Char) : Bool :=
  (newline? (skipGap chars)).isSome

/-- The rest of a string on several lines in double quotes; `folding` while blanks and line ends
are taken out. -/
def basicLines (folding : Bool) : List Char → Result
  | '"' :: '"' :: '"' :: '"' :: '"' :: rest => some (['"', '"'], rest)
  | '"' :: '"' :: '"' :: '"' :: rest => some (['"'], rest)
  | '"' :: '"' :: '"' :: rest => some ([], rest)
  | '\r' :: '\n' :: rest =>
    if folding then basicLines true rest else before '\n' (basicLines false rest)
  | '\\' :: 'u' :: a :: b :: c :: d :: rest => do
    before (← numbered? [a, b, c, d]) (basicLines false rest)
  | '\\' :: 'U' :: a :: b :: c :: d :: e :: f :: g :: h :: rest => do
    before (← numbered? [a, b, c, d, e, f, g, h]) (basicLines false rest)
  | '\\' :: char :: rest =>
    if endsLine (char :: rest) then
      if char = '\r' then basicLines true rest.tail else basicLines true rest
    else do before (← escaped? char) (basicLines false rest)
  | char :: rest =>
    if folding && (isGap char || char = '\n') then basicLines true rest
    else if isPrintable char || char = '\n' then before char (basicLines false rest)
    else none
  | [] => none
  termination_by chars => chars.length

/-- The rest of a string on several lines in single quotes. -/
def literalLines : List Char → Result
  | '\'' :: '\'' :: '\'' :: '\'' :: '\'' :: rest => some (['\'', '\''], rest)
  | '\'' :: '\'' :: '\'' :: '\'' :: rest => some (['\''], rest)
  | '\'' :: '\'' :: '\'' :: rest => some ([], rest)
  | '\r' :: '\n' :: rest => before '\n' (literalLines rest)
  | char :: rest =>
    if isPrintable char || char = '\n' then before char (literalLines rest) else none
  | [] => none

/-- A string without the line end that it begins with. -/
def withoutFirstLine (chars : List Char) : List Char :=
  (newline? chars).getD chars

/-- A string on one line. -/
def line? : List Char → Result
  | '"' :: rest => basic rest
  | '\'' :: rest => literal rest
  | _ => none

/-- A string of any kind. -/
def read? : List Char → Result
  | '"' :: '"' :: '"' :: rest => basicLines false (withoutFirstLine rest)
  | '\'' :: '\'' :: '\'' :: rest => literalLines (withoutFirstLine rest)
  | chars => line? chars

end IssueRelay.Toml.Quoted
