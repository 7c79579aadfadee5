import IssueRelay.Text.Decimal
import IssueRelay.Text.Percent
import IssueRelay.Url.Error

/-!
# Hosts

The host of a URL is a name, an IPv4 address or an IPv6 address. The schemes of the web read names
in ASCII, in lower case, and take a name whose last label is a number for an IPv4 address; other
schemes keep a name as it stands, with controls percent-encoded.
-/

namespace IssueRelay.Url

/-- Where a URL points to. An IPv6 address is the list of its eight pieces of sixteen bits. -/
inductive Host
  | domain (name : String)
  | v4 (address : Nat)
  | v6 (pieces : List Nat)
  deriving DecidableEq, Repr

namespace Host

/-- A number in lower-case hexadecimal digits. -/
def hexText (number : Nat) : String :=
  String.ofList (Nat.toDigits 16 number)

/-- The length of the run of zeros that begins a list. -/
def zeroRun (pieces : List Nat) : Nat :=
  (pieces.takeWhile (· = 0)).length

/-- Where the first of the longest runs of at least two zeros begins, and its length. -/
def longestZeroRun (pieces : List Nat) : Option (Nat × Nat) :=
  (List.range pieces.length).foldl (fun best start =>
    let length := zeroRun (pieces.drop start)
    if length < 2 then best
    else
      match best with
      | some (_, longest) => if longest < length then some (start, length) else best
      | none => some (start, length)) none

/-- Pieces in hexadecimal digits, with colons between them. -/
def piecesText (pieces : List Nat) : String :=
  ":".intercalate (pieces.map hexText)

/-- The written form of a host. -/
def text : Host → String
  | .domain name => name
  | .v4 address =>
    ".".intercalate ([16777216, 65536, 256, 1].map fun unit => toString (address / unit % 256))
  | .v6 pieces =>
    "[" ++ (match longestZeroRun pieces with
      | some (start, length) =>
        piecesText (pieces.take start) ++ "::" ++ piecesText (pieces.drop (start + length))
      | none => piecesText pieces) ++ "]"

/-- The value of digits in a base, if all of them are digits of it. -/
def digitsIn? (base : Nat) (digits : List Char) : Option Nat :=
  digits.foldlM (fun read char => do
    let digit ← Percent.hexValue? char
    if digit < base then some (read * base + digit) else none) 0

/-- A number as part of an IPv4 address: hexadecimal after `0x`, octal after another leading zero.
An empty part is no number, a bare `0x` or `0` is zero. -/
def addressPart? : List Char → Option Nat
  | [] => none
  | '0' :: 'x' :: digits => digitsIn? 16 digits
  | '0' :: 'X' :: digits => digitsIn? 16 digits
  | '0' :: first :: digits => digitsIn? 8 (first :: digits)
  | digits => digitsIn? 10 digits

/-- The labels of a name, without the empty one after a final dot. -/
def labels (name : List Char) : List (List Char) :=
  let parts := name.splitOn '.'
  if 1 < parts.length ∧ parts.getLast? = some [] then parts.dropLast else parts

/-- Whether the last label of a name is a number, which makes the name an IPv4 address. -/
def endsInNumber (name : List Char) : Bool :=
  match (labels name).getLast? with
  | none | some [] => false
  | some label => label.all (Decimal.digit? · |>.isSome) || (addressPart? label).isSome

/-- The IPv4 address of a name: up to four numbers, the last of which fills what the others leave,
and none of the others above 255. -/
def address? (name : List Char) : Option Nat := do
  let numbers ← (labels name).mapM addressPart?
  let last ← numbers.getLast?
  let others := numbers.dropLast
  if 4 < numbers.length ∨ others.any (255 < ·) ∨ Nat.pow 256 (4 - others.length) ≤ last then none
  else
    some <| others.zipIdx.foldl
      (fun sum (number, place) => sum + number * Nat.pow 256 (3 - place)) last

/-- A decimal octet inside an IPv6 address: no leading zero, at most 255. -/
def embeddedOctet? (digits : List Char) : Option Nat := do
  let value ← Decimal.value? digits
  if (digits.head? = some '0' ∧ 1 < digits.length) ∨ 255 < value then none else some value

/-- A piece of an IPv6 address: one to four hexadecimal digits. -/
def piece? (digits : List Char) : Option Nat :=
  if digits = [] ∨ 4 < digits.length then none else digitsIn? 16 digits

/-- The pieces of one side of an IPv6 address; the last part may be an IPv4 address in dots, which
makes two pieces. -/
def side? (mayEndInDots : Bool) : List (List Char) → Option (List Nat)
  | [] => some []
  | [last] =>
    if mayEndInDots ∧ last.contains '.' then
      match (last.splitOn '.').mapM embeddedOctet? with
      | some [a, b, c, d] => some [a * 256 + b, c * 256 + d]
      | _ => none
    else (piece? last).map ([·])
  | part :: rest => do return (← piece? part) :: (← side? mayEndInDots rest)

/-- The parts of one side of an IPv6 address. -/
def sideParts (side : List Char) : List (List Char) :=
  if side = [] then [] else side.splitOn ':'

/-- Splits at the first `::`. -/
def splitAtGap : List Char → Option (List Char × List Char)
  | ':' :: ':' :: rest => some ([], rest)
  | char :: rest => (splitAtGap rest).map fun (left, right) => (char :: left, right)
  | [] => none

/-- The pieces of an IPv6 address; a gap stands for at least one zero. -/
def pieces? (address : List Char) : Option (List Nat) :=
  match splitAtGap address with
  | some (left, right) => do
    let left ← side? false (sideParts left)
    let right ← side? true (sideParts right)
    if left.length + right.length ≤ 7 then
      some (left ++ List.replicate (8 - left.length - right.length) 0 ++ right)
    else none
  | none => do
    let pieces ← side? true (sideParts address)
    if pieces.length = 8 then some pieces else none

/-- The host in brackets, from the character after the opening one. -/
def ofBrackets (rest : List Char) : Except UrlError Host :=
  if rest.getLast? = some ']' then
    match pieces? rest.dropLast with
    | some pieces => .ok (.v6 pieces)
    | none => .error .invalidIpv6
  else .error .invalidIpv6

/-- Whether a character may not stand in a name of the web. -/
def isForbiddenInName (char : Char) : Bool :=
  char.toNat ≤ 0x20 || 0x7F ≤ char.toNat || "#/:<>?@[\\]^|%".toList.contains char

/-- Whether a character may not stand in a host of another scheme. -/
def isForbiddenInHost (char : Char) : Bool :=
  "\x00\t\n\x0d #/:<>?@[\\]^|".toList.contains char

/-- The host of a URL of the web. -/
def ofWeb : List Char → Except UrlError Host
  | '[' :: rest => ofBrackets rest
  | written => do
    let some name := Utf8.decode? (Percent.decodeText (String.ofList written))
      | .error .invalidDomain
    let name := name.toList.map Char.toLower
    if name.any isForbiddenInName then .error .invalidDomain
    else if name = [] then .error .emptyHost
    else if endsInNumber name then
      match address? name with
      | some address => .ok (.v4 address)
      | none => .error .invalidIpv4
    else .ok (.domain (String.ofList name))

/-- Whether an octet is a control. -/
def isControl (octet : UInt8) : Bool :=
  octet < 0x20 || octet = 0x7F

/-- The host of a URL of another scheme; none if it is empty. -/
def ofOther : List Char → Except UrlError (Option Host)
  | '[' :: rest => some <$> ofBrackets rest
  | [] => .ok none
  | written =>
    if written.any isForbiddenInHost then .error .invalidHostCharacter
    else .ok (some (.domain (Percent.encode isControl (String.ofList written))))

end Host
end IssueRelay.Url
