import IssueRelay.Text.Utf8

/-!
# Percent-encoding

An octet is written as itself or, if a given class claims it, as `%` and two upper-case
hexadecimal digits. Reading accepts digits of either case and leaves a `%` that two hexadecimal
digits do not follow as it is.
-/

namespace IssueRelay.Percent

/-- The upper-case hexadecimal digit of a number below sixteen. -/
def hexDigit (value : Nat) : Char :=
  if value < 10 then Char.ofNat ('0'.toNat + value) else Char.ofNat ('A'.toNat + (value - 10))

/-- The value of a hexadecimal digit of either case. -/
def hexValue? (char : Char) : Option Nat :=
  if '0' ≤ char ∧ char ≤ '9' then some (char.toNat - '0'.toNat)
  else if 'a' ≤ char ∧ char ≤ 'f' then some (char.toNat - 'a'.toNat + 10)
  else if 'A' ≤ char ∧ char ≤ 'F' then some (char.toNat - 'A'.toNat + 10)
  else none

/-- The written form of an octet that may not stand for itself. -/
def escape (octet : UInt8) : List Char :=
  ['%', hexDigit (octet.toNat / 16), hexDigit (octet.toNat % 16)]

/-- An octet in written form. Octets outside ASCII never stand for themselves. -/
def encodeOctet (escaped : UInt8 → Bool) (octet : UInt8) : List Char :=
  if octet ≥ 0x80 || escaped octet then escape octet else [Char.ofNat octet.toNat]

/-- Octets in written form, each of the class `escaped` as `%` and two digits. -/
def encodeOctets (escaped : UInt8 → Bool) (octets : Octets) : List Char :=
  octets.flatMap (encodeOctet escaped)

/-- A text in written form. -/
def encode (escaped : UInt8 → Bool) (text : String) : String :=
  String.ofList (encodeOctets escaped (Utf8.encode text))

/-- The octets that a written form stands for. -/
def decode : Octets → Octets
  | [] => []
  | octet :: rest =>
    if octet = '%'.toUInt8 then
      match rest with
      | high :: low :: after =>
        match hexValue? (Char.ofNat high.toNat), hexValue? (Char.ofNat low.toNat) with
        | some left, some right => UInt8.ofNat (left * 16 + right) :: decode after
        | _, _ => octet :: decode (high :: low :: after)
      | short => octet :: decode short
    else octet :: decode rest

/-- The octets that a written text stands for. -/
def decodeText (text : String) : Octets :=
  decode (Utf8.encode text)

@[simp] theorem decode_nil : decode [] = [] := by simp [decode]

/-- An octet that begins no escape stands for itself. -/
theorem decode_cons_of_ne {octet : UInt8} (plain : octet ≠ '%'.toUInt8) (rest : Octets) :
    decode (octet :: rest) = octet :: decode rest := by
  rw [decode.eq_def]
  simp [plain]

/-- A hexadecimal digit is read back from its character. -/
theorem hexValue?_hexDigit {value : Nat} (small : value < 16) :
    hexValue? (hexDigit value) = some value := by
  have every : ∀ digit : Fin 16, hexValue? (hexDigit digit) = some digit.val := by decide
  exact every ⟨value, small⟩

end IssueRelay.Percent
