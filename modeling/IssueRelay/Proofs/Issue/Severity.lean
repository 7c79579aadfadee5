import IssueRelay.Issue.Severity
import Mathlib.Data.List.Forall2

/-!
# Severities and ASCII case

A text names a known severity if it is one of the five words up to ASCII case, character by
character; any other text is kept. So reading a severity and writing it again changes nothing but
the case of known words, and a second round changes nothing at all
(`IssueRelay.Severity.ofText_folds_case`). No other case folding takes place: a text with a
character outside ASCII is never a known word.
-/

namespace IssueRelay

/-! ## Texts that differ in ASCII case -/

/-- Whether a character is the capital of a small ASCII letter. -/
def IsCapitalOf (capital small : Char) : Prop :=
  'a'.toNat ≤ small.toNat ∧ small.toNat ≤ 'z'.toNat ∧ capital.toNat + 32 = small.toNat

/-- Whether two characters are the same but for ASCII case. -/
def SameLetter (left right : Char) : Prop :=
  left = right ∨ IsCapitalOf left right ∨ IsCapitalOf right left

/-- Whether two texts are the same, character by character, but for ASCII case. -/
def SameUpToCase (left right : String) : Prop :=
  List.Forall₂ SameLetter left.toList right.toList

/-- The small ASCII letters stand 32 above their capitals, and no other character has one. -/
theorem toNat_toUpper (char : Char) :
    char.toUpper.toNat =
      if 'a'.toNat ≤ char.toNat ∧ char.toNat ≤ 'z'.toNat then char.toNat - 32
      else char.toNat := by
  have small : ('a'.val ≤ char.val ∧ char.val ≤ 'z'.val) ↔
      ('a'.toNat ≤ char.toNat ∧ char.toNat ≤ 'z'.toNat) := Iff.rfl
  delta Char.toUpper
  split
  case isTrue within =>
    rw [if_pos (small.mp within)]
    have lower : 'a'.toNat ≤ char.val.toNat := within.1
    have upper : char.val.toNat ≤ 'z'.toNat := within.2
    change (char.val + ('A'.val - 'a'.val)).toNat = char.val.toNat - 32
    have shift : ('A'.val - 'a'.val).toNat = 2 ^ 32 - 32 := by decide
    have bounds : 'a'.toNat = 97 ∧ 'z'.toNat = 122 := by decide
    rw [UInt32.toNat_add, shift]
    omega
  case isFalse outside => rw [if_neg (mt small.mpr outside)]

/-- Characters are the same but for case if their capitals are the same. -/
theorem sameLetter_iff {left right : Char} :
    SameLetter left right ↔ left.toUpper = right.toUpper := by
  have bounds : 'a'.toNat = 97 ∧ 'z'.toNat = 122 := by decide
  rw [← Char.toNat_inj, toNat_toUpper, toNat_toUpper, SameLetter, ← Char.toNat_inj, IsCapitalOf,
    IsCapitalOf]
  grind

/-- Texts are the same but for ASCII case exactly if their capitals are the same. -/
theorem sameUpToCase_iff {left right : String} :
    SameUpToCase left right ↔ left.toUpper = right.toUpper := by
  rw [← String.toList_inj, String.toUpper, String.toUpper, String.toList_map, String.toList_map,
    ← List.forall₂_eq_eq_eq, List.forall₂_map_left_iff, List.forall₂_map_right_iff]
  exact ⟨fun alike => alike.imp fun _ _ => sameLetter_iff.mp,
    fun alike => alike.imp fun _ _ => sameLetter_iff.mpr⟩

/-- A text is the same as its capitals but for ASCII case. -/
theorem SameUpToCase.toUpper_self (text : String) : SameUpToCase text.toUpper text := by
  have again (char : Char) : char.toUpper.toUpper = char.toUpper := by
    have bounds : 'a'.toNat = 97 ∧ 'z'.toNat = 122 := by decide
    rw [← Char.toNat_inj, toNat_toUpper, toNat_toUpper]
    grind
  rw [sameUpToCase_iff, ← String.toList_inj]
  simp only [String.toUpper, String.toList_map, List.map_map]
  exact List.map_congr_left fun char _ => again char

/-- Only characters within ASCII change with case. -/
theorem SameUpToCase.ascii {left right : String} (alike : SameUpToCase left right)
    (ascii : ∀ char ∈ right.toList, char.toNat < 0x80) :
    ∀ char ∈ left.toList, char.toNat < 0x80 := by
  intro char member
  obtain ⟨place, bound, rfl⟩ := List.getElem_of_mem member
  have within : place < right.toList.length := alike.length_eq ▸ bound
  have same : SameLetter left.toList[place] right.toList[place] := alike.get bound within
  have below := ascii _ (List.getElem_mem within)
  have last : 'z'.toNat = 122 := by decide
  rcases same with same | ⟨_, _, shifted⟩ | ⟨_, small, _⟩
  · exact same ▸ below
  · omega
  · omega

namespace Severity

/-! ## Known words -/

/-- The known words, as they are written. -/
def words : List String :=
  ["BLOCKER", "CRITICAL", "MAJOR", "MINOR", "INFO"]

/-- A text that names no known word is kept. -/
theorem ofText_of_unknown {raw : String} (unknown : raw.toUpper ∉ words) :
    ofText raw = .other raw := by
  simp only [words, List.mem_cons, List.not_mem_nil, or_false, not_or] at unknown
  simp [ofText, unknown]

/-- A known word is written in upper case, any other text as it stands. -/
theorem text_ofText (raw : String) :
    (ofText raw).text = if raw.toUpper ∈ words then raw.toUpper else raw := by
  split
  case isTrue known =>
    simp only [words, List.mem_cons, List.not_mem_nil, or_false] at known
    rcases known with same | same | same | same | same <;> simp [ofText, same, text]
  case isFalse unknown => rw [ofText_of_unknown unknown, text]

/-- A severity that was read is named by its written form. -/
theorem ofText_text_ofText (raw : String) : ofText (ofText raw).text = ofText raw := by
  by_cases known : raw.toUpper ∈ words
  · simp only [words, List.mem_cons, List.not_mem_nil, or_false] at known
    rcases known with same | same | same | same | same <;> simp only [ofText, same, text] <;>
      decide +kernel
  · rw [ofText_of_unknown known, text, ofText_of_unknown known]

/-- The known words are in upper case. -/
theorem toUpper_of_mem_words {word : String} (member : word ∈ words) : word.toUpper = word := by
  simp only [words, List.mem_cons, List.not_mem_nil, or_false] at member
  rcases member with rfl | rfl | rfl | rfl | rfl <;> decide +kernel

/-- Whether a text is one of the known words, in any ASCII case. -/
def IsKnown (raw : String) : Prop :=
  ∃ word ∈ words, SameUpToCase raw word

/-- A text is a known word exactly if its capitals are one. -/
theorem isKnown_iff {raw : String} : IsKnown raw ↔ raw.toUpper ∈ words := by
  constructor
  · rintro ⟨word, member, alike⟩
    rwa [sameUpToCase_iff.mp alike, toUpper_of_mem_words member]
  · intro member
    exact ⟨_, member, sameUpToCase_iff.mpr (toUpper_of_mem_words member).symm⟩

/-- A known word is read alike in every case. -/
theorem ofText_congr {left right : String} (alike : SameUpToCase left right)
    (known : IsKnown left) : ofText left = ofText right := by
  have same := sameUpToCase_iff.mp alike
  have member := isKnown_iff.mp known
  rw [← ofText_text_ofText left, ← ofText_text_ofText right, text_ofText, text_ofText, ← same,
    if_pos member, if_pos member]

/-- A text with a character outside ASCII is no known word. -/
theorem not_isKnown_of_not_ascii {raw : String} {char : Char} (member : char ∈ raw.toList)
    (outside : 0x80 ≤ char.toNat) : ¬IsKnown raw := by
  rintro ⟨word, listed, alike⟩
  -- A check of every word, not of every character that there is.
  have checked : words.all fun word => word.toList.all fun char => char.toNat < 0x80 := by
    decide +kernel
  have ascii := List.all_eq_true.mp (List.all_eq_true.mp checked word listed)
  have below := alike.ascii (fun char own => of_decide_eq_true (ascii char own)) char member
  omega

/-- The severities that have a word of their own. -/
def graded : List Severity :=
  [.blocker, .critical, .major, .minor, .info]

/-- A known severity is read from its word in any case, and from nothing else. -/
theorem ofText_eq_iff {raw : String} {severity : Severity} (own : severity ∈ graded) :
    ofText raw = severity ↔ SameUpToCase raw severity.text := by
  have written : severity.text ∈ words ∧ ofText severity.text = severity := by
    simp only [graded, List.mem_cons, List.not_mem_nil, or_false] at own
    rcases own with rfl | rfl | rfl | rfl | rfl <;> decide +kernel
  constructor
  · intro read
    by_cases known : raw.toUpper ∈ words
    · have same := text_ofText raw
      rw [read, if_pos known] at same
      rw [sameUpToCase_iff, same, toUpper_of_mem_words known]
    · rw [ofText_of_unknown known] at read
      subst read
      exact absurd own (by simp [graded])
  · intro alike
    have known : IsKnown raw := ⟨_, written.1, alike⟩
    rw [ofText_congr alike known, written.2]

/-- Texts that are the same but for case are shown alike, even if they are kept as they are. -/
theorem prominence_ofText_congr {left right : String} (alike : SameUpToCase left right) :
    (ofText left).prominence = (ofText right).prominence := by
  by_cases known : IsKnown left
  · rw [ofText_congr alike known]
  · have same := sameUpToCase_iff.mp alike
    rw [isKnown_iff] at known
    rw [ofText_of_unknown known, ofText_of_unknown (same ▸ known)]
    rfl

/-- **Severities fold ASCII case.** Reading a text as a severity and writing it again changes at
most the ASCII case, and only that of the five known words; reading the result gives the same
severity. Each known severity is read from its word in any case and from nothing else, so two texts
that differ in case alone name the same severity if one of them is known, and are shown alike in
any event. A text with a character outside ASCII, whatever its capital may be, is kept and shown as
a hint. -/
theorem ofText_folds_case (raw : String) :
    SameUpToCase (ofText raw).text raw ∧
      (¬IsKnown raw → (ofText raw).text = raw) ∧
      ofText (ofText raw).text = ofText raw ∧
      (∀ severity ∈ graded, ofText raw = severity ↔ SameUpToCase raw severity.text) ∧
      (∀ other, SameUpToCase raw other →
        (ofText raw).prominence = (ofText other).prominence ∧
        (IsKnown raw ∨ IsKnown other → ofText raw = ofText other)) ∧
      ((∃ char ∈ raw.toList, 0x80 ≤ char.toNat) →
        ofText raw = .other raw ∧ (ofText raw).text = raw ∧ (ofText raw).prominence = .hint) := by
  refine ⟨?_, fun unknown => ?_, ofText_text_ofText raw, fun _ => ofText_eq_iff,
    fun other alike => ⟨prominence_ofText_congr alike, ?_⟩, ?_⟩
  · rw [text_ofText]
    split
    · exact .toUpper_self raw
    · exact sameUpToCase_iff.mpr rfl
  · rw [text_ofText, if_neg (mt isKnown_iff.mpr unknown)]
  · rintro (known | known)
    · exact ofText_congr alike known
    · have back : SameUpToCase other raw := sameUpToCase_iff.mpr (sameUpToCase_iff.mp alike).symm
      exact (ofText_congr back known).symm
  · rintro ⟨char, member, outside⟩
    have unknown := not_isKnown_of_not_ascii member outside
    rw [ofText_of_unknown (mt isKnown_iff.mpr unknown)]
    exact ⟨rfl, rfl, rfl⟩

-- The capital of the dotless i is the ASCII letter I.
example : ofText "ınfo" = .other "ınfo" := by decide +kernel

end Severity
end IssueRelay
