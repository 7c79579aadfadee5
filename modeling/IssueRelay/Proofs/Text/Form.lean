import IssueRelay.Proofs.Text.Utf8
import IssueRelay.Text.Form

/-!
# Query strings lose nothing

Names and values are written with a few characters only, among them neither `&` nor `=`. So the
pairs of a query are read back as they were written, whatever their texts
(`IssueRelay.Form.decode_encode`).
-/

namespace IssueRelay

/-! ## Written characters as octets -/

namespace Percent

/-- Characters below 0x80 are octets of their own. -/
theorem encode_of_ascii {chars : List Char} (ascii : ∀ char ∈ chars, char.toNat < 0x80) :
    Utf8.encode (String.ofList chars) = chars.map fun char => UInt8.ofNat char.toNat := by
  rw [Utf8.encode, String.toList_ofList, List.map_eq_flatMap]
  exact List.flatMap_congr fun char member => Utf8.encodeChar_of_lt (ascii char member)

/-- An ASCII character is its octet. -/
theorem ofNat_ofNat {char : Char} (ascii : char.toNat < 0x80) :
    Char.ofNat (UInt8.ofNat char.toNat).toNat = char := by
  rw [UInt8.toNat_ofNat', Nat.mod_eq_of_lt (by omega), Char.ofNat_toNat]

/-- Hexadecimal digits are ASCII characters. -/
theorem hexDigit_ascii {value : Nat} (small : value < 16) : (hexDigit value).toNat < 0x80 := by
  have every : ∀ digit : Fin 16, (hexDigit digit).toNat < 0x80 := by decide
  exact every ⟨value, small⟩

/-- The written form of an octet is read as this octet. -/
theorem decode_escape (octet : UInt8) (rest : Octets) :
    decode ((escape octet).map (fun char => UInt8.ofNat char.toNat) ++ rest) =
      octet :: decode rest := by
  have bound := octet.toNat_lt
  have high : octet.toNat / 16 < 16 := by omega
  have low : octet.toNat % 16 < 16 := by omega
  have whole : octet.toNat / 16 * 16 + octet.toNat % 16 = octet.toNat := by omega
  rw [escape, decode.eq_def]
  simp only [List.map_cons, List.map_nil, List.cons_append, List.nil_append,
    ofNat_ofNat (hexDigit_ascii high), ofNat_ofNat (hexDigit_ascii low), hexValue?_hexDigit high,
    hexValue?_hexDigit low, whole, UInt8.ofNat_toNat]
  rfl

end Percent

namespace Form

/-- The octet that an octet of a written name or value stands for before percent-decoding. -/
def unplus (octet : UInt8) : UInt8 :=
  if octet = '+'.toUInt8 then ' '.toUInt8 else octet

/-- Whether a character may stand in a written name or value. -/
def isWritten (char : Char) : Bool :=
  char = '+' || char = '%' || (char.toNat < 0x80 && isPlain (UInt8.ofNat char.toNat))

/-- Hexadecimal digits may stand in a written name or value. -/
theorem isWritten_hexDigit {value : Nat} (small : value < 16) :
    isWritten (Percent.hexDigit value) = true := by
  have every : ∀ digit : Fin 16, isWritten (Percent.hexDigit digit) = true := by decide
  exact every ⟨value, small⟩

/-- What may stand in a written name or value is an ASCII character. -/
theorem ascii_of_isWritten {char : Char} (written : isWritten char = true) :
    char.toNat < 0x80 := by
  simp only [isWritten, Bool.or_eq_true, Bool.and_eq_true, decide_eq_true_eq] at written
  rcases written with (rfl | rfl) | ⟨ascii, _⟩
  · decide
  · decide
  · exact ascii

/-- An octet is written as `+`, with two digits, or as itself. -/
theorem encodeOctet_cases (octet : UInt8) :
    (octet = ' '.toUInt8 ∧ encodeOctet octet = ['+']) ∨
      encodeOctet octet = Percent.escape octet ∨
      ∃ char : Char, encodeOctet octet = [char] ∧ UInt8.ofNat char.toNat = octet ∧
        char.toNat < 0x80 ∧ isPlain octet = true := by
  rw [encodeOctet]
  split
  · rename_i blank
    exact .inl ⟨blank, rfl⟩
  · rw [Percent.encodeOctet]
    split
    · exact .inr (.inl rfl)
    · rename_i plain
      simp only [Bool.or_eq_true, decide_eq_true_eq, Bool.not_eq_true', not_or,
        Bool.not_eq_false, ge_iff_le, UInt8.le_iff_toNat_le, UInt8.reduceToNat, not_le] at plain
      obtain ⟨ascii, plain⟩ := plain
      have number := Utf8.toNat_ofNat_of_isValid (.inl (by omega) : octet.toNat.isValidChar)
      exact .inr (.inr ⟨_, rfl, by rw [number, UInt8.ofNat_toNat], by omega, plain⟩)

/-- What an octet is written as may stand in a name or value. -/
theorem isWritten_of_mem_encodeOctet {octet : UInt8} {char : Char}
    (member : char ∈ encodeOctet octet) : isWritten char = true := by
  have bound := octet.toNat_lt
  rcases encodeOctet_cases octet with ⟨_, plus⟩ | escaped | ⟨own, alone, same, ascii, plain⟩
  · rw [plus] at member
    rw [List.mem_singleton.mp member]
    rfl
  · rw [escaped] at member
    simp only [Percent.escape, List.mem_cons, List.not_mem_nil, or_false] at member
    rcases member with rfl | rfl | rfl
    · rfl
    · exact isWritten_hexDigit (by omega)
    · exact isWritten_hexDigit (by omega)
  · rw [alone] at member
    rw [List.mem_singleton.mp member, isWritten, same, plain, decide_eq_true ascii]
    simp

/-- A name or value is written with these characters only. -/
theorem isWritten_of_mem_encodePart {text : String} {char : Char}
    (member : char ∈ encodePart text) : isWritten char = true := by
  obtain ⟨octet, _, written⟩ := List.mem_flatMap.mp member
  exact isWritten_of_mem_encodeOctet written

/-! ## One name or value -/

/-- The written form of an octet is read as this octet. -/
theorem decode_encodeOctet (octet : UInt8) (rest : Octets) :
    Percent.decode
        (((encodeOctet octet).map fun char => unplus (UInt8.ofNat char.toNat)) ++ rest) =
      octet :: Percent.decode rest := by
  have bound := octet.toNat_lt
  rcases encodeOctet_cases octet with ⟨rfl, plus⟩ | escaped | ⟨own, alone, same, _, plain⟩
  · rw [plus]
    exact Percent.decode_cons_of_ne (by decide) rest
  · have digit : ∀ value : Fin 16, unplus (UInt8.ofNat (Percent.hexDigit value).toNat) =
        UInt8.ofNat (Percent.hexDigit value).toNat := by decide
    have unchanged : (Percent.escape octet).map (fun char => unplus (UInt8.ofNat char.toNat)) =
        (Percent.escape octet).map fun char => UInt8.ofNat char.toNat := by
      have high := digit ⟨octet.toNat / 16, by omega⟩
      have low := digit ⟨octet.toNat % 16, by omega⟩
      simp only [Percent.escape, List.map_cons, List.map_nil, high, low]
      rfl
    rw [escaped, unchanged, Percent.decode_escape]
  · have noPlus : octet ≠ '+'.toUInt8 := by
      rintro rfl
      exact absurd plain (by decide)
    have noPercent : octet ≠ '%'.toUInt8 := by
      rintro rfl
      exact absurd plain (by decide)
    rw [alone, List.map_singleton, same, unplus, if_neg noPlus, List.singleton_append,
      Percent.decode_cons_of_ne noPercent]

/-- A written name or value is read as the text that it was written for. -/
theorem decodePart_encodePart (text : String) : decodePart (encodePart text) = text := by
  have octets : Percent.decode ((encodePart text).map fun char =>
      unplus (UInt8.ofNat char.toNat)) = Utf8.encode text := by
    rw [encodePart]
    induction Utf8.encode text with
    | nil => simp
    | cons octet rest ih =>
        rw [List.flatMap_cons, List.map_append, decode_encodeOctet, ih]
  have ascii : ∀ char ∈ encodePart text, char.toNat < 0x80 := fun char member =>
    ascii_of_isWritten (isWritten_of_mem_encodePart member)
  have mapped : (Utf8.encode (String.ofList (encodePart text))).map unplus =
      (encodePart text).map fun char => unplus (UInt8.ofNat char.toNat) := by
    rw [Percent.encode_of_ascii ascii, List.map_map]
    rfl
  calc decodePart (encodePart text)
    _ = Utf8.decodeLossy
        (Percent.decode ((Utf8.encode (String.ofList (encodePart text))).map unplus)) := rfl
    _ = text := by rw [mapped, octets, Utf8.decodeLossy_encode]

/-! ## Pairs -/

/-- A pair that is written comes back. -/
theorem decodePair_encodePair (pair : String × String) : decodePair (encodePair pair) = pair := by
  have noEquals : ∀ char ∈ encodePart pair.1, decide (char ≠ '=') = true := by
    intro char member
    rw [decide_eq_true_eq]
    rintro rfl
    exact absurd (isWritten_of_mem_encodePart member) (by decide)
  have name : (encodePair pair).takeWhile (· ≠ '=') = encodePart pair.1 := by
    rw [encodePair, List.takeWhile_append_of_pos noEquals]
    simp
  have value : ((encodePair pair).dropWhile (· ≠ '=')).drop 1 = encodePart pair.2 := by
    rw [encodePair, List.dropWhile_append_of_pos noEquals]
    simp
  rw [decodePair, name, value, decodePart_encodePart, decodePart_encodePart]

/-- The pairs of a query are read back, in their order, whatever their texts. -/
theorem decode_encode (pairs : List (String × String)) : decode (encode pairs) = pairs := by
  have parts : ((['&'].intercalate (pairs.map encodePair)).splitOn '&').filter (· ≠ []) =
      pairs.map encodePair := by
    cases pairs with
    | nil => simp
    | cons pair rest =>
        rw [List.splitOn_intercalate]
        · rw [List.filter_eq_self]
          intro part member
          obtain ⟨other, _, rfl⟩ := List.mem_map.mp member
          simp [encodePair]
        · intro part member ampersand
          obtain ⟨other, _, rfl⟩ := List.mem_map.mp member
          rw [encodePair, List.mem_append, List.mem_cons] at ampersand
          rcases ampersand with name | equals | value
          · exact absurd (isWritten_of_mem_encodePart name) (by decide)
          · exact absurd equals (by decide)
          · exact absurd (isWritten_of_mem_encodePart value) (by decide)
        · simp
  rw [decode, encode, String.toList_ofList, parts, List.map_map]
  exact (List.map_congr_left fun pair _ => decodePair_encodePair pair).trans (List.map_id pairs)

/-- Different pairs make different queries. -/
theorem encode_injective : Function.Injective encode := by
  intro left right same
  rw [← decode_encode left, same, decode_encode]

end Form
end IssueRelay
