/-!
# Blank characters

The characters with the Unicode property White_Space, and texts without the blanks around them.
-/

namespace IssueRelay

/-- White_Space: the separators, the line ends and the controls that stand for them. -/
def isBlank (char : Char) : Bool :=
  let scalar := char.toNat
  (0x9 ≤ scalar && scalar ≤ 0xD) || scalar = 0x20 || scalar = 0x85 || scalar = 0xA0
    || scalar = 0x1680 || (0x2000 ≤ scalar && scalar ≤ 0x200A) || scalar = 0x2028
    || scalar = 0x2029 || scalar = 0x202F || scalar = 0x205F || scalar = 0x3000

/-- What counts as white space everywhere counts as blank here too. -/
theorem isBlank_of_isWhitespace {char : Char} (white : char.isWhitespace = true) :
    isBlank char = true := by
  simp only [Char.isWhitespace, Bool.or_eq_true, decide_eq_true_eq] at white
  rcases white with ((rfl | rfl) | rfl) | rfl <;> decide

/-- A list without its longest stretch at either end whose members all satisfy `drop`. -/
def dropAround {α : Type} (drop : α → Bool) (items : List α) : List α :=
  ((items.dropWhile drop).reverse.dropWhile drop).reverse

/-- A text without the blanks around it. -/
def trimBlank (text : String) : String :=
  String.ofList (dropAround isBlank text.toList)

end IssueRelay
