import IssueRelay.Proofs.Files.Components
import IssueRelay.Url.FilePath

/-!
# The path that a URL spells

Percent-decoding goes through a path segment by segment, since a slash ends whatever an escape could
have begun. So the file that a URL names has the components of the URL's whole path, decoded at once
(`IssueRelay.Url.filePath?_of_isLocal`).
-/

namespace IssueRelay

namespace Percent

/-- Two hexadecimal digits after a percent sign. -/
def BeginsWithDigits (octets : Octets) : Prop :=
  ∃ high low after left right, octets = high :: low :: after ∧
    hexValue? (Char.ofNat high.toNat) = some left ∧ hexValue? (Char.ofNat low.toNat) = some right

/-- A percent sign and two hexadecimal digits stand for one octet. -/
theorem decode_digits {high low : UInt8} {left right : Nat}
    (isHigh : hexValue? (Char.ofNat high.toNat) = some left)
    (isLow : hexValue? (Char.ofNat low.toNat) = some right) (after : Octets) :
    decode ('%'.toUInt8 :: high :: low :: after) =
      UInt8.ofNat (left * 16 + right) :: decode after := by
  rw [decode.eq_def]
  simp [isHigh, isLow]

/-- A percent sign stands for itself if digits do not follow it. -/
theorem decode_percent {rest : Octets} (alone : ¬BeginsWithDigits rest) :
    decode ('%'.toUInt8 :: rest) = '%'.toUInt8 :: decode rest := by
  rw [decode.eq_def]
  simp only [if_true]
  split
  · rename_i high low after
    split
    · rename_i left right isHigh isLow
      exact absurd ⟨high, low, after, left, right, rfl, isHigh, isLow⟩ alone
    · rfl
  · rfl

/-- A slash ends an escape that is not complete. -/
theorem decode_append_slash (left right : Octets) :
    decode (left ++ FilePath.slash :: right) = decode left ++ FilePath.slash :: decode right := by
  have noDigit : hexValue? (Char.ofNat FilePath.slash.toNat) = none := by decide
  have noPercent : FilePath.slash ≠ '%'.toUInt8 := by decide
  induction left using decode.induct with
  | case1 => rw [List.nil_append, decode_cons_of_ne noPercent, decode_nil, List.nil_append]
  | case2 high low after first second isLow isHigh ih =>
      rw [decode_digits isHigh isLow, List.cons_append, List.cons_append, List.cons_append,
        decode_digits isHigh isLow, ih, List.cons_append]
  | case3 high low after undigited ih =>
      have alone : ∀ rest, ¬BeginsWithDigits (high :: low :: rest) := by
        rintro rest ⟨_, _, _, _, _, same, isHigh, isLow⟩
        cases same
        exact undigited _ _ isHigh isLow
      rw [decode_percent (alone after), List.cons_append, List.cons_append, List.cons_append,
        decode_percent (alone _)]
      exact congrArg _ ih
  | case4 rest short ih =>
      have alone : ∀ others, ¬BeginsWithDigits (rest ++ FilePath.slash :: others) := by
        rintro others ⟨high, low, after, _, _, same, isHigh, isLow⟩
        match rest with
        | [] =>
            cases same
            rw [noDigit] at isHigh
            cases isHigh
        | [digit] =>
            cases same
            rw [noDigit] at isLow
            cases isLow
        | first :: second :: more => exact short first second more rfl
      have ended : ¬BeginsWithDigits rest := by
        rintro ⟨high, low, after, _, _, same, _⟩
        exact short high low after same
      rw [decode_percent ended, List.cons_append, decode_percent (alone right), ih,
        List.cons_append]
  | case5 octet rest plain ih =>
      rw [decode_cons_of_ne plain, List.cons_append, decode_cons_of_ne plain, ih, List.cons_append]

end Percent

namespace Url

/-- A rooted path is written as a slash, its first segment and the rest. -/
theorem encode_text_rooted_cons (segment : String) (rest : List String) :
    Utf8.encode (Path.rooted (segment :: rest)).text =
      FilePath.slash :: (Utf8.encode segment ++ Utf8.encode (Path.rooted rest).text) := by
  simp only [Path.text, List.map_cons, String.join_cons, Utf8.encode_append]
  rfl

/-- A path of segments is decoded segment by segment. -/
theorem decodeText_rooted (segments : List String) :
    Percent.decodeText (Path.rooted segments).text =
      segments.flatMap fun segment => FilePath.slash :: Percent.decodeText segment := by
  have noPercent : FilePath.slash ≠ '%'.toUInt8 := by decide
  induction segments with
  | nil =>
      rw [List.flatMap_nil, Percent.decodeText]
      simp [Path.text]
  | cons segment rest ih =>
      rw [Percent.decodeText] at ih
      rw [Percent.decodeText, encode_text_rooted_cons, Percent.decode_cons_of_ne noPercent,
        List.flatMap_cons, ← ih, Percent.decodeText]
      cases rest with
      | nil => simp [Path.text]
      | cons next others =>
          rw [encode_text_rooted_cons, Percent.decode_append_slash,
            Percent.decode_cons_of_ne noPercent]
          rfl

/-- The path that a URL spells, with percent-encoding undone. -/
def decodedPath (url : Url) : FilePath :=
  ⟨Percent.decodeText url.path.text⟩

/-- Whether a URL, of whatever scheme, has segments and no host but this machine. -/
def IsLocal (url : Url) : Prop :=
  (∃ first rest, url.path = .rooted (first :: rest)) ∧
    (url.host = none ∨ url.host = some (.domain "localhost"))

/-- The decoded path of a local URL is absolute. -/
theorem isRooted_decodedPath {url : Url} (isLocal : url.IsLocal) :
    url.decodedPath.isRooted = true := by
  obtain ⟨⟨first, rest, path⟩, _⟩ := isLocal
  rw [decodedPath, path, decodeText_rooted]
  rfl

/-- A URL that is not local names no file. -/
theorem filePath?_of_not_isLocal {url : Url} (elsewhere : ¬url.IsLocal) : url.filePath? = none := by
  rw [filePath?, segments?]
  split
  · rfl
  · rfl
  · rename_i segments present path
    obtain ⟨first, rest, rfl⟩ := List.exists_cons_of_ne_nil present
    exact if_neg fun here => elsewhere ⟨⟨first, rest, path⟩, here⟩

/-- The file that a local URL names has the components of the path that the URL spells: the slash
that the letter of a drive gets adds none. -/
theorem filePath?_of_isLocal {url : Url} (isLocal : url.IsLocal) :
    ∃ path, url.filePath? = some path ∧ path.components = url.decodedPath.components := by
  have rooted := isRooted_decodedPath isLocal
  obtain ⟨⟨first, rest, path⟩, here⟩ := isLocal
  rw [decodedPath, path, decodeText_rooted] at rooted ⊢
  let octets := (first :: rest).flatMap fun segment => FilePath.slash :: Percent.decodeText segment
  refine ⟨⟨if endsInDrive octets then octets ++ [FilePath.slash] else octets⟩, ?_, ?_⟩
  · rw [filePath?, segments?, path]
    exact if_pos here
  · split
    · exact FilePath.components_append_void rfl rooted
    · rfl

end Url
end IssueRelay
