/-!
# Numbers in decimal digits

Reading of natural numbers that have to fit a fixed width. A single leading `+` and leading zeros
are accepted, blanks and other signs are not; each refusal has its cause.
-/

namespace IssueRelay

/-- Why a text is no number of the width asked for. -/
inductive NumberError
  | empty
  | invalidDigit
  | tooLarge
  deriving DecidableEq, Repr

/-- The wording of a refusal. -/
def NumberError.message : NumberError → String
  | .empty => "cannot parse integer from empty string"
  | .invalidDigit => "invalid digit found in string"
  | .tooLarge => "number too large to fit in target type"

namespace Decimal

/-- The value of an ASCII digit. -/
def digit? (char : Char) : Option Nat :=
  if '0' ≤ char ∧ char ≤ '9' then some (char.toNat - '0'.toNat) else none

/-- The number that digits spell after a number already read, most significant digit first. -/
def valueFrom (read : Nat) : List Char → Option Nat
  | [] => some read
  | char :: rest => do valueFrom (read * 10 + (← digit? char)) rest

/-- The number that digits spell. No digits spell nothing. -/
def value? : List Char → Option Nat
  | [] => none
  | digits => valueFrom 0 digits

/-- The number below `limit` that a text spells. A foreign character is refused before the size is
looked at only if it comes first: reading stops at the first prefix that is too large. -/
def readBelow (limit : Nat) (text : String) : Except NumberError Nat :=
  match text.toList with
  | [] => .error .empty
  | ['+'] => .error .invalidDigit
  | '+' :: digits => go 0 digits
  | digits => go 0 digits
where
  /-- Continues after a number already read. -/
  go (read : Nat) : List Char → Except NumberError Nat
    | [] => .ok read
    | char :: rest =>
      match digit? char with
      | none => .error .invalidDigit
      | some digit =>
        let grown := read * 10 + digit
        if grown < limit then go grown rest else .error .tooLarge

/-- A digit is read back from its character. -/
theorem digit?_digitChar {digit : Nat} (single : digit < 10) :
    digit? digit.digitChar = some digit := by
  have all : ∀ value < 10, digit? (Nat.digitChar value) = some value := by decide
  exact all digit single

/-- Reading digits in two parts is reading them in one, the first part carried over. -/
theorem go_append (limit read : Nat) (left right : List Char) :
    readBelow.go limit read (left ++ right) =
      (readBelow.go limit read left).bind fun value => readBelow.go limit value right := by
  induction left generalizing read with
  | nil => rfl
  | cons char rest ih =>
      rw [List.cons_append, readBelow.go, readBelow.go]
      split
      · rfl
      · dsimp only
        split
        · exact ih _
        · rfl

/-- The digits of a number are read one by one, the last one after the others. -/
theorem go_toDigits {limit number : Nat} (fits : number < limit) :
    readBelow.go limit 0 (Nat.toDigits 10 number) = .ok number := by
  induction number using Nat.strongRecOn with
  | ind number ih =>
      by_cases single : number < 10
      · have read := digit?_digitChar single
        rw [Nat.toDigits_of_lt_base single]
        simp [readBelow.go, read, fits]
      · have front := ih (number / 10) (by omega) (by omega)
        have last := digit?_digitChar (Nat.mod_lt number (by decide : 10 > 0))
        have whole : number / 10 * 10 + number % 10 = number := by omega
        rw [Nat.toDigits_of_base_le (by decide) (by omega), go_append, front]
        simp [Except.bind, readBelow.go, last, whole, fits]

/-- A number that fits is read back from the digits it is written in. -/
theorem readBelow_toString {limit number : Nat} (fits : number < limit) :
    readBelow limit (toString number) = .ok number := by
  have written : (toString number).toList = Nat.toDigits 10 number := Nat.toList_repr
  have unsigned : ∀ rest, Nat.toDigits 10 number ≠ '+' :: rest := by
    intro rest signed
    have isDigit := Nat.isDigit_of_mem_toDigits (c := '+') (n := number) (by decide)
      (Nat.le_refl 10) (by rw [signed]; exact List.mem_cons_self)
    cases isDigit
  rw [readBelow, written]
  split
  · rename_i empty
    exact (Nat.toDigits_ne_nil empty).elim
  · rename_i signed
    exact (unsigned _ signed).elim
  · rename_i signed
    exact (unsigned _ signed).elim
  · exact go_toDigits fits

end Decimal
end IssueRelay
