import IssueRelay.Text.Percent

/-!
# JSON tokens

The lexical grammar of JSON over octets. Blanks are space, tab, line feed and carriage return only;
raw control characters end a string in error; numerals have no leading zeros and no leading `+`.
-/

namespace IssueRelay.Json

/-- The smallest units of a JSON text. -/
inductive Token
  | leftBrace
  | rightBrace
  | leftBracket
  | rightBracket
  | comma
  | colon
  | null
  | bool (value : Bool)
  | int (value : Int)
  | real (literal : String)
  | str (text : Option String)
  deriving DecidableEq, Repr

namespace Token

/-- What one element of a string contributes: an octet, or a UTF-16 unit given by its number. -/
inductive Element
  | octet (value : UInt8)
  | unit (value : Nat)
  deriving DecidableEq, Repr

/-- The octets that the elements of a string stand for. A high and a low surrogate in succession
stand for one character; any other surrogate stands for nothing. -/
def spell : List Element → Option Octets
  | [] => some []
  | .octet value :: rest => (spell rest).map (value :: ·)
  | .unit high :: rest =>
    if high < 0xD800 ∨ 0xDFFF < high then
      (spell rest).map (String.utf8EncodeChar (Char.ofNat high) ++ ·)
    else if high ≤ 0xDBFF then
      match rest with
      | .unit low :: after =>
        if 0xDC00 ≤ low ∧ low ≤ 0xDFFF then
          let scalar := 0x10000 + (high - 0xD800) * 0x400 + (low - 0xDC00)
          (spell after).map (String.utf8EncodeChar (Char.ofNat scalar) ++ ·)
        else none
      | _ => none
    else none

/-- The text of a string, if its elements spell one. -/
def textOf (elements : List Element) : Option String :=
  (spell elements).bind Utf8.decode?

/-- The value of an octet that is a hexadecimal digit. -/
def hexOf? (octet : UInt8) : Option Nat :=
  Percent.hexValue? (Char.ofNat octet.toNat)

/-- What a short escape stands for. -/
def shortEscape? (octet : UInt8) : Option UInt8 :=
  match Char.ofNat octet.toNat with
  | '"' => some 0x22
  | '\\' => some 0x5C
  | '/' => some 0x2F
  | 'b' => some 0x08
  | 'f' => some 0x0C
  | 'n' => some 0x0A
  | 'r' => some 0x0D
  | 't' => some 0x09
  | _ => none

/-- The number that four hexadecimal digits spell. -/
def unitOf? (a b c d : UInt8) : Option Nat := do
  return (((← hexOf? a) * 16 + (← hexOf? b)) * 16 + (← hexOf? c)) * 16 + (← hexOf? d)

/-- The elements of a string and what follows it, from the octet after its opening quote. -/
def stringBody : Octets → Option (List Element × Octets)
  | [] => none
  | 0x22 :: rest => some ([], rest)
  | 0x5C :: 0x75 :: a :: b :: c :: d :: rest => do
    let value ← unitOf? a b c d
    let (elements, after) ← stringBody rest
    return (.unit value :: elements, after)
  | 0x5C :: octet :: rest => do
    let value ← shortEscape? octet
    let (elements, after) ← stringBody rest
    return (.octet value :: elements, after)
  | octet :: rest =>
    if octet < 0x20 ∨ octet = 0x5C then none
    else do
      let (elements, after) ← stringBody rest
      return (.octet octet :: elements, after)

/-- Reading a string consumes octets. -/
theorem stringBody_length {octets after : Octets} {elements : List Element}
    (read : stringBody octets = some (elements, after)) : after.length < octets.length := by
  fun_induction stringBody octets generalizing elements after with
  | case1 => simp at read
  | case2 => simp_all
  | case3 a b c d rest ih =>
    simp only [Option.bind_eq_bind, Option.bind_eq_some_iff, Option.pure_def, Option.some.injEq,
      Prod.exists, Prod.mk.injEq] at read
    obtain ⟨_, _, inner, last, body, _, rfl⟩ := read
    have shorter := ih body
    simp only [List.length_cons]
    omega
  | case4 octet rest _ ih =>
    simp only [Option.bind_eq_bind, Option.bind_eq_some_iff, Option.pure_def, Option.some.injEq,
      Prod.exists, Prod.mk.injEq] at read
    obtain ⟨_, _, inner, last, body, _, rfl⟩ := read
    have shorter := ih body
    simp only [List.length_cons]
    omega
  | case5 => simp at read
  | case6 octet rest _ _ _ _ ih =>
    simp only [Option.bind_eq_bind, Option.bind_eq_some_iff, Option.pure_def, Option.some.injEq,
      Prod.exists, Prod.mk.injEq] at read
    obtain ⟨inner, last, body, _, rfl⟩ := read
    have shorter := ih body
    simp only [List.length_cons]
    omega

/-- Whether an octet is a decimal digit. -/
def isDigit (octet : UInt8) : Bool :=
  0x30 ≤ octet && octet ≤ 0x39

/-- Octets of ASCII characters as a text. -/
def asciiText (octets : Octets) : String :=
  String.ofList (octets.map fun octet => Char.ofNat octet.toNat)

/-- The fraction at the head of octets, with its point; empty when there is none. -/
def fraction? : Octets → Option Octets
  | 0x2E :: rest =>
    let digits := rest.takeWhile isDigit
    if digits = [] then none else some (0x2E :: digits)
  | _ => some []

/-- The exponent at the head of octets, with its letter and sign; empty when there is none. -/
def exponent? : Octets → Option Octets
  | [] => some []
  | letter :: rest =>
    if letter = 0x65 ∨ letter = 0x45 then
      let sign := (rest.take 1).takeWhile fun octet => octet = 0x2B || octet = 0x2D
      let digits := (rest.drop sign.length).takeWhile isDigit
      if digits = [] then none else some (letter :: sign ++ digits)
    else some []

/-- The numeral at the head of octets and how many octets it takes. -/
def numeral? (octets : Octets) : Option (Token × Nat) := do
  let sign := (octets.take 1).takeWhile (· = 0x2D)
  let whole := (octets.drop sign.length).takeWhile isDigit
  if whole = [] ∨ (whole.head? = some 0x30 ∧ 1 < whole.length) then none
  else
    let rest := octets.drop (sign.length + whole.length)
    let fraction ← fraction? rest
    let exponent ← exponent? (rest.drop fraction.length)
    let literal := sign ++ whole ++ fraction ++ exponent
    let magnitude : Nat := whole.foldl (fun read digit => read * 10 + (digit.toNat - 0x30)) 0
    let token :=
      if fraction ++ exponent ≠ [] ∨ (sign ≠ [] ∧ magnitude = 0) then Token.real (asciiText literal)
      else if sign = [] then .int magnitude
      else .int (-magnitude)
    return (token, literal.length)

/-- The words of the grammar. -/
def words : List (Octets × Token) :=
  [(Utf8.encode "null", .null), (Utf8.encode "true", .bool true),
    (Utf8.encode "false", .bool false)]

/-- The sign that an octet is on its own. -/
def sign? (octet : UInt8) : Option Token :=
  match Char.ofNat octet.toNat with
  | '{' => some .leftBrace
  | '}' => some .rightBrace
  | '[' => some .leftBracket
  | ']' => some .rightBracket
  | ',' => some .comma
  | ':' => some .colon
  | _ => none

/-- Whether an octet is a JSON blank. -/
def isSpace (octet : UInt8) : Bool :=
  octet = 0x20 || octet = 0x09 || octet = 0x0A || octet = 0x0D

/-- The token that begins with `octet` and the octets after it. -/
def first? (octet : UInt8) (rest : Octets) : Option (Token × Octets) :=
  if octet = 0x22 then
    (stringBody rest).map fun (elements, after) => (.str (textOf elements), after)
  else if octet = 0x2D ∨ isDigit octet then
    (numeral? (octet :: rest)).map fun (token, taken) => (token, rest.drop (taken - 1))
  else
    match sign? octet with
    | some token => some (token, rest)
    | none =>
      (words.find? fun word => word.1.isPrefixOf (octet :: rest)).map fun word =>
        (word.2, rest.drop (word.1.length - 1))

/-- Reading a token consumes its first octet at least. -/
theorem first?_length {octet : UInt8} {rest after : Octets} {token : Token}
    (read : first? octet rest = some (token, after)) : after.length ≤ rest.length := by
  unfold first? at read
  split at read
  · obtain ⟨⟨elements, last⟩, body, same⟩ := Option.map_eq_some_iff.mp read
    cases same
    exact Nat.le_of_lt (stringBody_length body)
  · split at read
    · obtain ⟨⟨found, taken⟩, _, same⟩ := Option.map_eq_some_iff.mp read
      cases same
      simp
    · split at read
      · cases read
        exact Nat.le_refl _
      · obtain ⟨word, _, same⟩ := Option.map_eq_some_iff.mp read
        cases same
        simp

/-- The tokens of a JSON text, after those already read, latest first. -/
def scanAfter (before : List Token) : Octets → Option (List Token)
  | [] => some before.reverse
  | octet :: rest =>
    if isSpace octet then scanAfter before rest
    else
      match _read : first? octet rest with
      | none => none
      | some (token, after) => scanAfter (token :: before) after
termination_by octets => octets.length
decreasing_by
  · simp
  · have shorter := first?_length _read
    simp only [List.length_cons]
    omega

/-- The tokens of a JSON text. -/
def scan (octets : Octets) : Option (List Token) :=
  scanAfter [] octets

end Token
end IssueRelay.Json
