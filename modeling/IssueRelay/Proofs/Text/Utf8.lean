import IssueRelay.Proofs.Text.Split
import IssueRelay.Text.Utf8
import Mathlib.Data.String.Basic

/-!
# Reading back what was written

The octets of a text are read as its characters and nothing else
(`IssueRelay.Utf8.pieces_encode`), so strict and lenient reading both give the text back. An octet
below 0x80 stands for its own character wherever it is met, and for no other: a text can be split at
such characters before it is written or after.
-/

namespace IssueRelay.Utf8

variable {scalar : Nat} {rest : Octets}

/-- A number below 256 is the value of its octet. -/
private theorem toNat_ofNat {number : Nat} (fits : number < 256) :
    (UInt8.ofNat number).toNat = number := by
  rw [UInt8.toNat_ofNat', Nat.mod_eq_of_lt fits]

/-! ## One character -/

/-- The role of a first octet, by its number. -/
theorem lead_ofNat {number : Nat} (fits : number < 256) :
    lead (UInt8.ofNat number) =
      if number < 0x80 then .whole (Char.ofNat number)
      else if number < 0xC2 then .invalid
      else if number < 0xE0 then .longer (.inside (number - 0xC0) 0x80 0xBF 0)
      else if number = 0xE0 then .longer (.inside 0 0xA0 0xBF 1)
      else if number = 0xED then .longer (.inside 0xD 0x80 0x9F 1)
      else if number < 0xF0 then .longer (.inside (number - 0xE0) 0x80 0xBF 1)
      else if number = 0xF0 then .longer (.inside 0 0x90 0xBF 2)
      else if number < 0xF4 then .longer (.inside (number - 0xF0) 0x80 0xBF 2)
      else if number = 0xF4 then .longer (.inside 4 0x80 0x8F 2)
      else .invalid := by
  simp only [lead, UInt8.lt_iff_toNat_lt, ← UInt8.toNat_inj, toNat_ofNat fits, UInt8.reduceToNat]

/-- A first octet announces a longer character, and the next one lies in its bounds. -/
def Announces (first second : UInt8) (scalar more : Nat) : Prop :=
  ∃ least greatest, lead first = .longer (.inside scalar least greatest more) ∧
    least ≤ second ∧ second ≤ greatest

/-- An octet lies between two others if its number does. -/
private theorem ofNat_within {number : Nat} {least greatest : UInt8} (low : least.toNat ≤ number)
    (high : number ≤ greatest.toNat) :
    least ≤ UInt8.ofNat number ∧ UInt8.ofNat number ≤ greatest := by
  have bound := greatest.toNat_lt
  rw [UInt8.le_iff_toNat_le, UInt8.le_iff_toNat_le, toNat_ofNat (by omega)]
  exact ⟨low, high⟩

/-- The first octet of a character of two octets announces one more digit. -/
theorem announces_two (least : 0x80 ≤ scalar) (greatest : scalar < 0x800) :
    Announces (UInt8.ofNat (scalar / 64 % 32 + 0xC0)) (UInt8.ofNat (scalar % 64 + 0x80))
      (scalar / 64) 0 := by
  have first : scalar / 64 % 32 + 0xC0 - 0xC0 = scalar / 64 := by omega
  refine ⟨0x80, 0xBF, ?_, ofNat_within (by simp) (by simp; omega)⟩
  rw [lead_ofNat (by omega), if_neg (by omega), if_neg (by omega), if_pos (by omega), first]

/-- The first octet of a character of three octets announces two more digits, the first within
bounds that shut out surrogates and longer spellings of lesser characters. -/
theorem announces_three (least : 0x800 ≤ scalar) (greatest : scalar < 0x10000)
    (noSurrogate : scalar < 0xD800 ∨ 0xDFFF < scalar) :
    Announces (UInt8.ofNat (scalar / 4096 % 16 + 0xE0)) (UInt8.ofNat (scalar / 64 % 64 + 0x80))
      (scalar / 4096) 1 := by
  have first : scalar / 4096 % 16 + 0xE0 - 0xE0 = scalar / 4096 := by omega
  rw [Announces, lead_ofNat (by omega), if_neg (by omega), if_neg (by omega), if_neg (by omega)]
  by_cases lowest : scalar / 4096 = 0
  · rw [if_pos (by omega), lowest]
    exact ⟨_, _, rfl, ofNat_within (by simp; omega) (by simp; omega)⟩
  · rw [if_neg (by omega)]
    by_cases surrogates : scalar / 4096 = 0xD
    · rw [if_pos (by omega), surrogates]
      exact ⟨_, _, rfl, ofNat_within (by simp) (by simp; omega)⟩
    · rw [if_neg (by omega), if_pos (by omega), first]
      exact ⟨_, _, rfl, ofNat_within (by simp) (by simp; omega)⟩

/-- The first octet of a character of four octets announces three more digits, the first within
bounds that shut out longer spellings and numbers that are too great. -/
theorem announces_four (least : 0x10000 ≤ scalar) (greatest : scalar < 0x110000) :
    Announces (UInt8.ofNat (scalar / 262144 % 8 + 0xF0)) (UInt8.ofNat (scalar / 4096 % 64 + 0x80))
      (scalar / 262144) 2 := by
  have first : scalar / 262144 % 8 + 0xF0 - 0xF0 = scalar / 262144 := by omega
  rw [Announces, lead_ofNat (by omega), if_neg (by omega), if_neg (by omega), if_neg (by omega),
    if_neg (by omega), if_neg (by omega), if_neg (by omega)]
  by_cases lowest : scalar / 262144 = 0
  · rw [if_pos (by omega), lowest]
    exact ⟨_, _, rfl, ofNat_within (by simp; omega) (by simp; omega)⟩
  · rw [if_neg (by omega)]
    by_cases highest : scalar / 262144 = 4
    · rw [if_neg (by omega), if_pos (by omega), highest]
      exact ⟨_, _, rfl, ofNat_within (by simp) (by simp; omega)⟩
    · rw [if_pos (by omega), first]
      exact ⟨_, _, rfl, ofNat_within (by simp) (by simp; omega)⟩

/-! ## Reading on -/

/-- An octet that is a whole character is read as this character. -/
theorem piecesFrom_whole {octet : UInt8} {char : Char} (whole : lead octet = .whole char)
    (rest : Octets) :
    piecesFrom .idle (octet :: rest) = some char :: piecesFrom .idle rest := by
  rw [piecesFrom, piecesFrom.start, whole]

/-- What is read after a digit of a character that lacks `more` others. -/
def readOn (scalar : Nat) : Nat → Octets → List (Option Char)
  | 0, rest => some (Char.ofNat scalar) :: piecesFrom .idle rest
  | more + 1, rest => piecesFrom (.inside scalar 0x80 0xBF more) rest

/-- Inside a character, an octet within the bounds is its next digit to the base of 64. -/
theorem piecesFrom_inside {least greatest : UInt8} {digit : Nat}
    (within : least ≤ UInt8.ofNat (digit + 0x80) ∧ UInt8.ofNat (digit + 0x80) ≤ greatest)
    (small : digit < 64) (more : Nat) (rest : Octets) :
    piecesFrom (.inside scalar least greatest more) (UInt8.ofNat (digit + 0x80) :: rest) =
      readOn (scalar * 64 + digit) more rest := by
  rw [piecesFrom, if_pos within, toNat_ofNat (by omega), Nat.add_sub_cancel]
  cases more <;> rfl

/-- After a first octet that announces it, the second is read as a digit. -/
theorem piecesFrom_announced {first : UInt8} {digit more : Nat}
    (announces : Announces first (UInt8.ofNat (digit + 0x80)) scalar more) (small : digit < 64)
    (rest : Octets) :
    piecesFrom .idle (first :: UInt8.ofNat (digit + 0x80) :: rest) =
      readOn (scalar * 64 + digit) more rest := by
  obtain ⟨least, greatest, longer, within⟩ := announces
  rw [piecesFrom, piecesFrom.start, longer]
  exact piecesFrom_inside within small more rest

/-- A further octet within the bounds is read as the next digit. -/
theorem readOn_digit {digit : Nat} (small : digit < 64) (more : Nat) (rest : Octets) :
    readOn scalar (more + 1) (UInt8.ofNat (digit + 0x80) :: rest) =
      readOn (scalar * 64 + digit) more rest :=
  piecesFrom_inside (ofNat_within (by simp) (by simp; omega)) small more rest

/-- The octets of a character are read as this character. -/
theorem piecesFrom_encodeChar (char : Char) (rest : Octets) :
    piecesFrom .idle (String.utf8EncodeChar char ++ rest) =
      some char :: piecesFrom .idle rest := by
  have valid : char.val.toNat < 0xD800 ∨ 0xDFFF < char.val.toNat ∧ char.val.toNat < 0x110000 :=
    char.valid
  have whole : Char.ofNat char.val.toNat = char := Char.ofNat_toNat char
  simp only [String.utf8EncodeChar]
  generalize char.val.toNat = scalar at valid whole
  split_ifs with one two three <;> simp only [List.cons_append, List.nil_append]
  · refine piecesFrom_whole ?_ rest
    rw [lead_ofNat (by omega), if_pos (by omega), whole]
  · have digits : scalar / 64 * 64 + scalar % 64 = scalar := by omega
    rw [piecesFrom_announced (announces_two (by omega) (by omega)) (by omega), digits, readOn,
      whole]
  · have digits : (scalar / 4096 * 64 + scalar / 64 % 64) * 64 + scalar % 64 = scalar := by omega
    rw [piecesFrom_announced (announces_three (by omega) (by omega) (by omega)) (by omega),
      readOn_digit (by omega), digits, readOn, whole]
  · have digits : ((scalar / 262144 * 64 + scalar / 4096 % 64) * 64 + scalar / 64 % 64) * 64 +
        scalar % 64 = scalar := by omega
    rw [piecesFrom_announced (announces_four (by omega) (by omega)) (by omega),
      readOn_digit (by omega), readOn_digit (by omega), digits, readOn, whole]

/-! ## Whole texts -/

/-- A text that was written is read as its characters. -/
theorem pieces_encode (text : String) : pieces (encode text) = text.toList.map some := by
  rw [pieces, encode]
  induction text.toList with
  | nil => simp [piecesFrom]
  | cons char chars ih => rw [List.flatMap_cons, piecesFrom_encodeChar, ih, List.map_cons]

/-- Every text comes back from its octets. -/
@[simp] theorem decode?_encode (text : String) : decode? (encode text) = some text := by
  have whole : (text.toList.map some).mapM id = some text.toList := by
    induction text.toList with
    | nil => rfl
    | cons char chars ih => rw [List.map_cons, List.mapM_cons, ih]; rfl
  rw [decode?, pieces_encode, whole, Option.map_some, String.ofList_toList]

/-- Every text comes back from its octets where errors are replaced. -/
@[simp] theorem decodeLossy_encode (text : String) : decodeLossy (encode text) = text :=
  decodeLossy_eq_of_decode? (decode?_encode text)

/-! ## Characters of one octet -/

/-- A number that is that of a character is the number of this character. -/
theorem toNat_ofNat_of_isValid {number : Nat} (valid : number.isValidChar) :
    (Char.ofNat number).toNat = number := by
  rw [Char.ofNat, dif_pos valid]
  rfl

/-- A character below 0x80 is written as the octet of its number. -/
theorem encodeChar_of_lt {char : Char} (ascii : char.toNat < 0x80) :
    String.utf8EncodeChar char = [UInt8.ofNat char.toNat] := by
  have least : char.val.toNat ≤ 0x7F := Nat.le_of_lt_succ ascii
  rw [String.utf8EncodeChar, if_pos least]
  rfl

/-- An octet below 0x80 is written for the character of its number only. -/
theorem toNat_eq_of_mem_encodeChar {char : Char} {octet : UInt8} (ascii : octet.toNat < 0x80)
    (member : octet ∈ String.utf8EncodeChar char) : char.toNat = octet.toNat := by
  change char.val.toNat = octet.toNat
  have high : ∀ {number : Nat}, 0x80 ≤ number → number < 256 → octet ≠ UInt8.ofNat number := by
    rintro number least fits rfl
    rw [toNat_ofNat fits] at ascii
    omega
  simp only [String.utf8EncodeChar] at member
  generalize char.val.toNat = scalar at member
  split_ifs at member with one
  · rw [List.mem_singleton.mp member, toNat_ofNat (by omega)]
  all_goals
    simp only [List.mem_cons, List.not_mem_nil, or_false] at member
    simp (disch := omega) only [high, or_self] at member

/-- A text may be split at a character of one octet before it is written or after. -/
theorem splitOn_encode {char : Char} (ascii : char.toNat < 0x80) (text : String) :
    (encode text).splitOn (UInt8.ofNat char.toNat) =
      (text.toList.splitOn char).map fun piece => encode (String.ofList piece) := by
  have number : (UInt8.ofNat char.toNat).toNat = char.toNat := toNat_ofNat (by omega)
  have absent : ∀ other, other ≠ char → UInt8.ofNat char.toNat ∉ String.utf8EncodeChar other := by
    intro other different member
    have same := toNat_eq_of_mem_encodeChar (by omega) member
    exact different (Char.toNat_inj.mp (same.trans number))
  simp only [encode, String.toList_ofList]
  exact Split.splitOn_flatMap (encodeChar_of_lt ascii) absent text.toList

/-! ## Ill-formed octets -/

/-- A character whose next octet is at least `least`, and which lacks `more` others, is none of
those below 0x80. -/
def IsHigh (scalar : Nat) (least : UInt8) (more : Nat) : Prop :=
  0x80 ≤ least.toNat ∧ 0x80 ≤ (scalar * 64 + (least.toNat - 0x80)) * 64 ^ more

/-- An octet is an ASCII character, or it begins a character that is none, or it begins nothing. -/
theorem lead_cases (octet : UInt8) :
    (octet.toNat < 0x80 ∧ lead octet = .whole (Char.ofNat octet.toNat)) ∨
      lead octet = .invalid ∨
      ∃ scalar least greatest more, lead octet = .longer (.inside scalar least greatest more) ∧
        IsHigh scalar least more := by
  simp only [lead, UInt8.lt_iff_toNat_lt, UInt8.reduceToNat]
  split_ifs with one stray two lowest surrogates three least four greatest
  · exact .inl ⟨one, rfl⟩
  · exact .inr (.inl rfl)
  · exact .inr (.inr ⟨_, _, _, _, rfl, by simp [IsHigh]; omega⟩)
  · exact .inr (.inr ⟨_, _, _, _, rfl, by simp [IsHigh]⟩)
  · exact .inr (.inr ⟨_, _, _, _, rfl, by simp [IsHigh]⟩)
  · have different : octet.toNat ≠ 0xE0 := fun same => lowest (UInt8.toNat_inj.mp same)
    exact .inr (.inr ⟨_, _, _, _, rfl, by simp [IsHigh]; omega⟩)
  · exact .inr (.inr ⟨_, _, _, _, rfl, by simp [IsHigh]⟩)
  · have different : octet.toNat ≠ 0xF0 := fun same => least (UInt8.toNat_inj.mp same)
    exact .inr (.inr ⟨_, _, _, _, rfl, by simp [IsHigh]; omega⟩)
  · exact .inr (.inr ⟨_, _, _, _, rfl, by simp [IsHigh]⟩)
  · exact .inr (.inl rfl)

/-- With a digit within the bounds, the character is still none of those below 0x80. -/
private theorem IsHigh.grown {least octet : UInt8} {more : Nat} (high : IsHigh scalar least more)
    (within : least ≤ octet) : 0x80 ≤ (scalar * 64 + (octet.toNat - 0x80)) * 64 ^ more := by
  rw [UInt8.le_iff_toNat_le] at within
  exact high.2.trans (Nat.mul_le_mul_right _ (by omega))

/-- An octet that ends a character leaves it above 0x80. -/
theorem IsHigh.last {least octet : UInt8} (high : IsHigh scalar least 0) (within : least ≤ octet) :
    0x80 ≤ scalar * 64 + (octet.toNat - 0x80) := by
  simpa using high.grown within

/-- With one more digit within the bounds, the character still becomes none of those below 0x80. -/
theorem IsHigh.next {least octet : UInt8} {more : Nat} (high : IsHigh scalar least (more + 1))
    (within : least ≤ octet) : IsHigh (scalar * 64 + (octet.toNat - 0x80)) 0x80 more := by
  refine ⟨by simp, (high.grown within).trans_eq ?_⟩
  rw [Nat.pow_succ']
  simp [Nat.mul_assoc]

/-- Whatever an octet begins, something is read of it. -/
theorem start_ne_nil {octet : UInt8} {rest : Octets}
    (inside : ∀ scalar least greatest more,
      piecesFrom (.inside scalar least greatest more) rest ≠ []) :
    piecesFrom.start octet rest ≠ [] := by
  rw [piecesFrom.start]
  rcases lead_cases octet with ⟨_, whole⟩ | invalid | ⟨scalar, least, greatest, more, longer, _⟩
  · rw [whole]
    exact List.cons_ne_nil _ _
  · rw [invalid]
    exact List.cons_ne_nil _ _
  · rw [longer]
    exact inside scalar least greatest more

/-- Of a character that has begun something is read, if only an error. -/
theorem inside_ne_nil (octets : Octets) (scalar : Nat) (least greatest : UInt8) (more : Nat) :
    piecesFrom (.inside scalar least greatest more) octets ≠ [] := by
  induction octets generalizing scalar least greatest more with
  | nil => simp [piecesFrom]
  | cons octet rest ih =>
      rw [piecesFrom]
      split
      · cases more with
        | zero => exact List.cons_ne_nil _ _
        | succ more => exact ih _ _ _ _
      · exact List.cons_ne_nil _ _

/-- Something is read from octets, well-formed or not. -/
theorem decodeLossy_ne_empty {octets : Octets} (present : octets ≠ []) :
    decodeLossy octets ≠ "" := by
  obtain ⟨octet, rest, rfl⟩ := List.exists_cons_of_ne_nil present
  have some : pieces (octet :: rest) ≠ [] := by
    rw [pieces, piecesFrom]
    exact start_ne_nil (inside_ne_nil rest)
  intro empty
  have chars := congrArg String.toList empty
  rw [decodeLossy, String.toList_ofList, String.toList_empty, List.map_eq_nil_iff] at chars
  exact some chars

/-- What is read of an octet as a whole character is that octet, and all else is read of those that
follow. -/
theorem mem_of_mem_start {char : Char} {octet : UInt8} {rest : Octets}
    (idle : some char ∈ piecesFrom .idle rest → UInt8.ofNat char.toNat ∈ rest)
    (inside : ∀ scalar least greatest more, IsHigh scalar least more →
      some char ∈ piecesFrom (.inside scalar least greatest more) rest →
        UInt8.ofNat char.toNat ∈ rest)
    (member : some char ∈ piecesFrom.start octet rest) :
    UInt8.ofNat char.toNat ∈ octet :: rest := by
  rw [piecesFrom.start] at member
  rcases lead_cases octet with ⟨single, whole⟩ | invalid |
    ⟨scalar, least, greatest, more, longer, high⟩
  · rw [whole] at member
    rcases List.mem_cons.mp member with same | later
    · have number := toNat_ofNat_of_isValid (.inl (by omega) : octet.toNat.isValidChar)
      rw [Option.some.inj same, number, UInt8.ofNat_toNat]
      exact List.mem_cons_self
    · exact List.mem_cons_of_mem _ (idle later)
  · rw [invalid] at member
    exact List.mem_cons_of_mem _ (idle (List.mem_of_ne_of_mem (by simp) member))
  · rw [longer] at member
    exact List.mem_cons_of_mem _ (inside _ _ _ _ high member)

section Ascii

variable {char : Char} (positive : 0 < char.toNat) (ascii : char.toNat < 0x80)

include positive ascii

/-- A character below 0x80 is not made of a longer form. -/
theorem ofNat_ne_of_le {number : Nat} (high : 0x80 ≤ number) : Char.ofNat number ≠ char := by
  rintro rfl
  by_cases valid : number.isValidChar
  · rw [toNat_ofNat_of_isValid valid] at ascii
    exact absurd ascii (Nat.not_lt.mpr high)
  · rw [Char.ofNat, dif_neg valid] at positive
    exact absurd positive (by decide)

/-- A character below 0x80 is read only from its own octet. -/
theorem mem_of_mem_pieces (octets : Octets) :
    (some char ∈ piecesFrom .idle octets → UInt8.ofNat char.toNat ∈ octets) ∧
      ∀ scalar least greatest more, IsHigh scalar least more →
        some char ∈ piecesFrom (.inside scalar least greatest more) octets →
          UInt8.ofNat char.toNat ∈ octets := by
  induction octets with
  | nil => simp [piecesFrom]
  | cons octet rest ih =>
      obtain ⟨idle, inside⟩ := ih
      refine ⟨fun member => ?_, fun scalar least greatest more high member => ?_⟩
      · rw [piecesFrom] at member
        exact mem_of_mem_start idle inside member
      · rw [piecesFrom] at member
        split at member
        · rename_i within
          apply List.mem_cons_of_mem
          cases more with
          | zero =>
              rcases List.mem_cons.mp member with same | later
              · exact absurd (Option.some.inj same).symm
                  (ofNat_ne_of_le positive ascii (high.last within.1))
              · exact idle later
          | succ more => exact inside _ _ _ _ (high.next within.1) member
        · rcases List.mem_cons.mp member with same | later
          · cases same
          · exact mem_of_mem_start idle inside later

/-- An ASCII character in a decoded text is one of the octets. -/
theorem mem_of_mem_decodeLossy {octets : Octets} (member : char ∈ (decodeLossy octets).toList) :
    UInt8.ofNat char.toNat ∈ octets := by
  rw [decodeLossy, String.toList_ofList] at member
  obtain ⟨piece, read, same⟩ := List.mem_map.mp member
  cases piece with
  | none =>
      rw [← same] at ascii
      exact absurd ascii (by decide)
  | some other => exact (mem_of_mem_pieces positive ascii octets).1 (same ▸ read)

end Ascii

end IssueRelay.Utf8
