/-!
# Blanks, comments and line ends in TOML

A line ends with a line feed, which a carriage return may precede. Control characters other than
the tab may stand nowhere, not even in a comment.
-/

namespace IssueRelay.Toml

/-- Blanks within a line. -/
def isGap (char : Char) : Bool :=
  char = ' ' || char = '\t'

/-- The characters that may stand in a line. -/
def isPrintable (char : Char) : Bool :=
  char = '\t' || (0x20 ≤ char.toNat && char.toNat ≠ 0x7F)

/-- What follows the blanks. -/
def skipGap (chars : List Char) : List Char :=
  chars.dropWhile isGap

/-- What follows a line end. -/
def newline? : List Char → Option (List Char)
  | '\n' :: rest => some rest
  | '\r' :: '\n' :: rest => some rest
  | _ => none

/-- What follows a comment, if there is one. -/
def skipComment : List Char → List Char
  | '#' :: rest => rest.dropWhile isPrintable
  | chars => chars

/-- What follows the rest of a line on which only a comment is left. -/
def endLine? (chars : List Char) : Option (List Char) :=
  match skipComment (skipGap chars) with
  | [] => some []
  | rest => newline? rest

/-- What follows blanks, comments and line ends. -/
def skipFiller (inComment : Bool) : List Char → List Char
  | [] => []
  | '\r' :: '\n' :: rest => skipFiller false rest
  | char :: rest =>
    if char = '\n' then skipFiller false rest
    else if inComment then
      if isPrintable char then skipFiller true rest else char :: rest
    else if isGap char then skipFiller false rest
    else if char = '#' then skipFiller true rest
    else char :: rest

end IssueRelay.Toml
