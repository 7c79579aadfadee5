import IssueRelay.Files.Path
import IssueRelay.Url.Basic

/-!
# URLs of files

The path of the file that a URL names: its segments with percent-encoding undone, so a segment may
bring slashes and octets of any value. A URL without segments, or with a host other than this
machine, names no file.
-/

namespace IssueRelay.Url

/-- Whether octets end in the letter of a drive. -/
def endsInDrive (octets : Octets) : Bool :=
  match octets.reverse with
  | mark :: letter :: _ :: _ =>
    (Char.ofNat letter.toNat).isAlpha && letter < 0x80 && (mark = 0x3A || mark = 0x7C)
  | _ => false

/-- The path of the file that a URL names. The letter of a drive at its end gets a slash. -/
def filePath? (url : Url) : Option FilePath := do
  let segments ← url.segments?
  if url.host = none ∨ url.host = some (.domain "localhost") then
    let octets := segments.flatMap fun segment => FilePath.slash :: Percent.decodeText segment
    some ⟨if endsInDrive octets then octets ++ [FilePath.slash] else octets⟩
  else none

end IssueRelay.Url
