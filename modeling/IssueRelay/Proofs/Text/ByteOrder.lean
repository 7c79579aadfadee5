import IssueRelay.Text.Utf8
import Mathlib.Data.String.Basic

/-!
# The order of texts is the order of their octets

Texts are compared character by character. UTF-8 is made so that comparing their octets, as
unsigned numbers and one by one, comes to the same (`IssueRelay.Utf8.encode_lt_iff`).
-/

namespace IssueRelay.Utf8

/-- Octets are ordered as the numbers that they are made of. -/
private theorem ofNat_lt_ofNat {left right : Nat} (fits : left < 256) (fitsRight : right < 256) :
    UInt8.ofNat left < UInt8.ofNat right ↔ left < right := by
  rw [UInt8.lt_iff_toNat_lt, UInt8.toNat_ofNat', UInt8.toNat_ofNat', Nat.mod_eq_of_lt fits,
    Nat.mod_eq_of_lt fitsRight]

/-- Octets are equal only if the numbers that they are made of are. -/
private theorem ofNat_eq_ofNat {left right : Nat} (fits : left < 256) (fitsRight : right < 256) :
    UInt8.ofNat left = UInt8.ofNat right ↔ left = right := by
  rw [← UInt8.toNat_inj, UInt8.toNat_ofNat', UInt8.toNat_ofNat', Nat.mod_eq_of_lt fits,
    Nat.mod_eq_of_lt fitsRight]

/-- The octets of characters settle the order of all that begins with these characters. -/
theorem encodeChar_append_lt {left right : Char} (before : left < right) (restLeft rest : Octets) :
    String.utf8EncodeChar left ++ restLeft < String.utf8EncodeChar right ++ rest := by
  have below : left.val.toNat < right.val.toNat := before
  have bound : right.val.toNat < 0x110000 := by
    rcases right.valid with low | ⟨_, high⟩
    · exact Nat.lt_trans low (by decide)
    · exact high
  have digits : ∀ scalar : Nat, scalar / 4096 = scalar / 64 / 64 ∧
      scalar / 262144 = scalar / 64 / 64 / 64 := by omega
  simp only [String.utf8EncodeChar, digits]
  generalize left.val.toNat = low at below
  generalize right.val.toNat = high at below bound
  -- A form with more octets has a greater first octet; forms of one length are compared digit by
  -- digit to the base of 64.
  split_ifs
  all_goals
    simp only [List.cons_append, List.nil_append, List.cons_lt_cons_iff]
    simp (disch := omega) only [ofNat_lt_ofNat, ofNat_eq_ofNat]
    omega

/-- Texts in order are encoded in order: where they first differ, the octets of the lesser character
are less. -/
private theorem encode_lt_of_lt {left right : List Char} (before : left < right) :
    left.flatMap String.utf8EncodeChar < right.flatMap String.utf8EncodeChar := by
  induction left generalizing right with
  | nil =>
      cases right with
      | nil => exact absurd before (List.lt_irrefl [])
      | cons first rest =>
          have present := String.utf8EncodeChar_ne_nil (c := first)
          obtain ⟨octet, others, octets⟩ := List.exists_cons_of_ne_nil present
          rw [List.flatMap_cons, octets]
          exact List.nil_lt_cons _ _
  | cons first rest ih =>
      cases right with
      | nil => exact absurd before (List.not_lt_nil _)
      | cons other others =>
          rw [List.flatMap_cons, List.flatMap_cons]
          rcases List.cons_lt_cons_iff.mp before with less | ⟨rfl, later⟩
          · exact encodeChar_append_lt less _ _
          · exact List.append_left_lt (ih later)

/-- Texts are ordered by their characters as they are by their octets. -/
theorem encode_lt_iff {left right : String} : encode left < encode right ↔ left < right := by
  constructor
  · intro before
    rcases lt_trichotomy left right with less | rfl | greater
    · exact less
    · exact absurd before (List.lt_irrefl _)
    · exact absurd before (List.lt_asymm (encode_lt_of_lt (String.lt_iff_toList_lt.mp greater)))
  · exact fun less => encode_lt_of_lt (String.lt_iff_toList_lt.mp less)

end IssueRelay.Utf8
