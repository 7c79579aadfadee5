import IssueRelay.Text.Percent
import IssueRelay.Toml.Value

/-!
# Numbers, truth values and points in time in TOML

What may stand as a value without brackets and quotes. Whole numbers have 64 bits with sign;
underscores may part their digits. A real number may not be so great that it has no finite double,
unless it is negative. Points in time have to exist.
-/

namespace IssueRelay.Toml

/-- The value of a digit in a base. -/
def digitIn? (base : Nat) (char : Char) : Option Nat :=
  (Percent.hexValue? char).filter (· < base)

/-- The digits of a numeral with underscores between digits. -/
def digits? (base : Nat) (chars : List Char) : Option (List Nat) :=
  let groups := chars.splitOn '_'
  if groups.all (!·.isEmpty) then groups.flatten.mapM (digitIn? base) else none

/-- The number that digits spell. -/
def ofDigits (base : Nat) (digits : List Nat) : Nat :=
  digits.foldl (fun value digit => value * base + digit) 0

/-- The digits of a decimal numeral, which has no needless zero in front. -/
def decimal? (chars : List Char) : Option (List Nat) := do
  let digits ← digits? 10 chars
  if digits.length > 1 ∧ digits.head? = some 0 then none else some digits

/-- A numeral without its sign, and whether the sign is a minus. -/
def splitSign : List Char → Bool × List Char
  | '-' :: rest => (true, rest)
  | '+' :: rest => (false, rest)
  | chars => (false, chars)

/-- A whole number of 64 bits. -/
def word64? (value : Int) : Option Int :=
  if -0x8000000000000000 ≤ value ∧ value < 0x8000000000000000 then some value else none

/-- A whole number. -/
def integer? : List Char → Option Int
  | '0' :: 'x' :: rest => (digits? 16 rest).bind fun digits => word64? (ofDigits 16 digits)
  | '0' :: 'o' :: rest => (digits? 8 rest).bind fun digits => word64? (ofDigits 8 digits)
  | '0' :: 'b' :: rest => (digits? 2 rest).bind fun digits => word64? (ofDigits 2 digits)
  | chars => do
    let (negative, numeral) := splitSign chars
    let magnitude := ofDigits 10 (← decimal? numeral)
    word64? (if negative then -magnitude else magnitude)

/-- The least number that rounds to no finite double. -/
def overflow : Nat :=
  Nat.pow 2 1024 - Nat.pow 2 970

/-- Whether the digits of a number, of which so many stand after the point, have a finite double
after scaling by a power of ten. Scales far beyond those of doubles need no arithmetic. -/
def isFinite (digits : List Nat) (scale : Int) : Bool :=
  let significant := digits.dropWhile (· = 0)
  let size := (significant.length : Int) + scale
  if significant = [] || size ≤ 308 then true
  else if size > 309 then false
  else if 0 ≤ scale then ofDigits 10 significant * Nat.pow 10 scale.toNat < overflow
  else ofDigits 10 significant < overflow * Nat.pow 10 (-scale).toNat

/-- A piece of a numeral split at the first of the given characters. -/
def splitAtFirst (marks : List Char) (chars : List Char) : List Char × Option (List Char) :=
  match chars.span (!marks.contains ·) with
  | (front, _ :: rest) => (front, some rest)
  | (front, []) => (front, none)

/-- The exponent of a numeral; none is zero. -/
def exponent? : Option (List Char) → Option Int
  | none => some 0
  | some chars => do
    let (negative, numeral) := splitSign chars
    let magnitude := ofDigits 10 (← digits? 10 numeral)
    return if negative then -magnitude else magnitude

/-- Whether a numeral is a real number in digits. -/
def isDecimalReal (chars : List Char) : Bool :=
  let (negative, numeral) := splitSign chars
  let (mantissa, exponent) := splitAtFirst ['e', 'E'] numeral
  let (whole, fraction) := splitAtFirst ['.'] mantissa
  let finite := do
    let wholeDigits ← decimal? whole
    let fractionDigits ← (fraction.map (digits? 10)).getD (some [])
    let scale ← exponent? exponent
    return negative || isFinite (wholeDigits ++ fractionDigits) (scale - fractionDigits.length)
  (fraction.isSome || exponent.isSome) && finite.getD false

/-- Whether a numeral is a real number. -/
def isReal (chars : List Char) : Bool :=
  let (_, numeral) := splitSign chars
  numeral = ['i', 'n', 'f'] || numeral = ['n', 'a', 'n'] || isDecimalReal chars

/-- A number of exactly so many digits at the beginning of a text, and the rest. -/
def fixed? (count : Nat) (chars : List Char) : Option (Nat × List Char) := do
  let front := chars.take count
  if front.length = count then
    return (ofDigits 10 (← front.mapM (digitIn? 10)), chars.drop count)
  else none

/-- What follows a character. -/
def after? (char : Char) : List Char → Option (List Char)
  | first :: rest => if first = char then some rest else none
  | [] => none

/-- Whether a year has a day more. -/
def isLeapYear (year : Nat) : Bool :=
  year % 4 = 0 && (year % 100 ≠ 0 || year % 400 = 0)

/-- How many days a month has. -/
def daysInMonth (year month : Nat) : Nat :=
  if month = 2 then (if isLeapYear year then 29 else 28)
  else if [4, 6, 9, 11].contains month then 30
  else 31

/-- What follows a date. -/
def date? (chars : List Char) : Option (List Char) := do
  let (year, chars) ← fixed? 4 chars
  let (month, chars) ← fixed? 2 (← after? '-' chars)
  let (day, chars) ← fixed? 2 (← after? '-' chars)
  if 1 ≤ month ∧ month ≤ 12 ∧ 1 ≤ day ∧ day ≤ daysInMonth year month then some chars else none

/-- What follows the fraction of a second, if there is one. -/
def fraction? : List Char → Option (List Char)
  | '.' :: rest =>
    let isDigit char := (digitIn? 10 char).isSome
    if (rest.takeWhile isDigit).isEmpty then none else some (rest.dropWhile isDigit)
  | chars => some chars

/-- What follows hour and minute. -/
def minute? (chars : List Char) : Option (List Char) := do
  let (hour, chars) ← fixed? 2 chars
  let (minute, chars) ← fixed? 2 (← after? ':' chars)
  if hour ≤ 23 ∧ minute ≤ 59 then some chars else none

/-- What follows a time of day; a minute may have a leap second. -/
def time? (chars : List Char) : Option (List Char) := do
  let (second, chars) ← fixed? 2 (← after? ':' (← minute? chars))
  if second ≤ 60 then fraction? chars else none

/-- Whether a text is an offset from universal time. -/
def isOffset : List Char → Bool
  | ['Z'] | ['z'] => true
  | '+' :: rest | '-' :: rest => minute? rest = some []
  | _ => false

/-- Whether a text is a time of day, with an offset or without. -/
def isTimeWithOffset (chars : List Char) : Bool :=
  match time? chars with
  | some [] => true
  | some rest => isOffset rest
  | none => false

/-- Whether a text without blanks is a point in time: a date, a time of day, or both, and in this
case perhaps an offset. -/
def isMoment (chars : List Char) : Bool :=
  time? chars = some [] ||
    match date? chars with
    | some [] => true
    | some ('T' :: rest) | some ('t' :: rest) => isTimeWithOffset rest
    | _ => false

/-- The characters of values without brackets and quotes. -/
def isBare (char : Char) : Bool :=
  char.isAlphanum || ['_', '+', '-', '.', ':'].contains char

/-- The value that a text without blanks spells. -/
def scalar? (chars : List Char) : Option Value :=
  if chars = "true".toList then some (.boolean true)
  else if chars = "false".toList then some (.boolean false)
  else if isMoment chars then some (.moment (String.ofList chars))
  else if isReal chars then some (.real (String.ofList chars))
  else (integer? chars).map .integer

/-- A value without brackets and quotes. A blank may part the date from the time of day. -/
def bare? (chars : List Char) : Option (Value × List Char) :=
  let (front, rest) := chars.span isBare
  let later := match rest with
    | ' ' :: more => more.takeWhile isBare
    | _ => []
  if date? front = some [] ∧ later ≠ [] then
    if isTimeWithOffset later then
      some (.moment (String.ofList (front ++ ' ' :: later)), rest.drop (later.length + 1))
    else none
  else (scalar? front).map (·, rest)

end IssueRelay.Toml
