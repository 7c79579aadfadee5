import IssueRelay.Text.Percent

/-!
# Query strings as lists of pairs

The form `name=value&name=value`: names and values are written with `+` for a blank and
percent-encoding for everything but ASCII letters, digits and `*`, `-`, `.`, `_`. Reading splits
at `&` and at the first `=` of each part, and leaves out empty parts.
-/

namespace IssueRelay.Form

/-- The octets that stand for themselves. -/
def isPlain (octet : UInt8) : Bool :=
  ('0'.toUInt8 ≤ octet && octet ≤ '9'.toUInt8) || ('A'.toUInt8 ≤ octet && octet ≤ 'Z'.toUInt8)
    || ('a'.toUInt8 ≤ octet && octet ≤ 'z'.toUInt8) || octet = '*'.toUInt8
    || octet = '-'.toUInt8 || octet = '.'.toUInt8 || octet = '_'.toUInt8

/-- An octet of a name or value in written form. -/
def encodeOctet (octet : UInt8) : List Char :=
  if octet = ' '.toUInt8 then ['+'] else Percent.encodeOctet (fun other => !isPlain other) octet

/-- A name or value in written form. -/
def encodePart (text : String) : List Char :=
  (Utf8.encode text).flatMap encodeOctet

/-- A pair in written form. -/
def encodePair (pair : String × String) : List Char :=
  encodePart pair.1 ++ '=' :: encodePart pair.2

/-- Pairs in written form, in their order. -/
def encode (pairs : List (String × String)) : String :=
  String.ofList (['&'].intercalate (pairs.map encodePair))

/-- The text that a written name or value stands for. -/
def decodePart (written : List Char) : String :=
  let octets := Utf8.encode (String.ofList written)
  Utf8.decodeLossy
    (Percent.decode (octets.map fun octet => if octet = '+'.toUInt8 then ' '.toUInt8 else octet))

/-- The pair that one part of a query stands for. -/
def decodePair (part : List Char) : String × String :=
  (decodePart (part.takeWhile (· ≠ '=')), decodePart ((part.dropWhile (· ≠ '=')).drop 1))

/-- The pairs that a query stands for. -/
def decode (query : String) : List (String × String) :=
  ((query.toList.splitOn '&').filter (· ≠ [])).map decodePair

end IssueRelay.Form
