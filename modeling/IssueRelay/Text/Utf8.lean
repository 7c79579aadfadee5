/-!
# Text as octets

A text is written as the UTF-8 octets of its characters. Reading goes the other way and meets
octets that spell no character, so `pieces` gives one entry per character and one `none` per
ill-formed stretch, where a stretch ends before the first octet that could not continue it.
Strict reading (`decode?`) wants no such stretch; lenient reading (`decodeLossy`) puts U+FFFD in
the place of each.
-/

namespace IssueRelay

/-- A sequence of octets: what files, processes and servers exchange. -/
abbrev Octets := List UInt8

namespace Utf8

/-- The octets of a text. -/
def encode (text : String) : Octets :=
  text.toList.flatMap String.utf8EncodeChar

@[simp] theorem encode_empty : encode "" = [] := rfl

/-- Texts are encoded one after the other. -/
theorem encode_append (left right : String) :
    encode (left ++ right) = encode left ++ encode right := by
  simp [encode]

/-- How far the reading of a character has come: between characters, or inside one whose scalar so
far is `scalar`, whose next octet lies between `least` and `greatest`, and which lacks `more`
octets after that one. -/
inductive Progress
  | idle
  | inside (scalar : Nat) (least greatest : UInt8) (more : Nat)
  deriving DecidableEq, Repr

/-- What a first octet announces: a whole character, a longer one, or nothing at all. -/
inductive Lead
  | whole (char : Char)
  | longer (progress : Progress)
  | invalid
  deriving DecidableEq, Repr

/-- The role of a first octet. The bounds on the second octet leave out overlong forms, surrogates
and scalars above U+10FFFF. -/
def lead (octet : UInt8) : Lead :=
  if octet < 0x80 then .whole (Char.ofNat octet.toNat)
  else if octet < 0xC2 then .invalid
  else if octet < 0xE0 then .longer (.inside (octet.toNat - 0xC0) 0x80 0xBF 0)
  else if octet = 0xE0 then .longer (.inside 0 0xA0 0xBF 1)
  else if octet = 0xED then .longer (.inside 0xD 0x80 0x9F 1)
  else if octet < 0xF0 then .longer (.inside (octet.toNat - 0xE0) 0x80 0xBF 1)
  else if octet = 0xF0 then .longer (.inside 0 0x90 0xBF 2)
  else if octet < 0xF4 then .longer (.inside (octet.toNat - 0xF0) 0x80 0xBF 2)
  else if octet = 0xF4 then .longer (.inside 4 0x80 0x8F 2)
  else .invalid

/-- The pieces of `octets` when reading stands at `progress`. -/
def piecesFrom : Progress → Octets → List (Option Char)
  | .idle, [] => []
  | .inside .., [] => [none]
  | progress, octet :: rest =>
    match progress with
    | .idle => start octet rest
    | .inside scalar least greatest more =>
      if least ≤ octet ∧ octet ≤ greatest then
        let grown := scalar * 64 + (octet.toNat - 0x80)
        match more with
        | 0 => some (Char.ofNat grown) :: piecesFrom .idle rest
        | more + 1 => piecesFrom (.inside grown 0x80 0xBF more) rest
      else none :: start octet rest
where
  /-- The pieces from an octet that begins a character. -/
  start (octet : UInt8) (rest : Octets) : List (Option Char) :=
    match lead octet with
    | .whole char => some char :: piecesFrom .idle rest
    | .longer progress => piecesFrom progress rest
    | .invalid => none :: piecesFrom .idle rest

/-- The characters that octets spell, with `none` for every ill-formed stretch. -/
def pieces (octets : Octets) : List (Option Char) :=
  piecesFrom .idle octets

/-- The text that octets spell, if all of them belong to characters. -/
def decode? (octets : Octets) : Option String :=
  ((pieces octets).mapM id).map String.ofList

/-- The text that octets spell, with U+FFFD for every ill-formed stretch. -/
def decodeLossy (octets : Octets) : String :=
  String.ofList ((pieces octets).map (·.getD '\uFFFD'))

/-- A list of present characters is what filling its gaps gives. -/
theorem map_getD_of_mapM {found : List (Option Char)} {chars : List Char}
    (whole : found.mapM id = some chars) : found.map (·.getD '\uFFFD') = chars := by
  induction found generalizing chars with
  | nil => simp_all
  | cons piece rest ih =>
    rw [List.mapM_cons] at whole
    cases piece with
    | none => simp at whole
    | some char =>
      cases tail : rest.mapM id with
      | none => simp [tail] at whole
      | some others =>
        simp only [id, tail] at whole
        cases whole
        simp [ih tail]

/-- Where strict reading succeeds, lenient reading agrees with it. -/
theorem decodeLossy_eq_of_decode? {octets : Octets} {text : String}
    (read : decode? octets = some text) : decodeLossy octets = text := by
  obtain ⟨chars, whole, rfl⟩ := Option.map_eq_some_iff.mp read
  rw [decodeLossy, map_getD_of_mapM whole]

end Utf8
end IssueRelay
