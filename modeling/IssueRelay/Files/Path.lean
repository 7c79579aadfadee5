import IssueRelay.Text.Utf8

/-!
# File paths

A path is any sequence of octets; slashes part it into components. Repeated slashes, slashes at the
end and components of one dot count for nothing, except for a dot that a relative path begins with.
Components of two dots are kept: going up is lexical here and asks no directory.
-/

namespace IssueRelay

/-- A path of a file or directory. -/
structure FilePath where
  octets : Octets
  deriving DecidableEq, Repr

namespace FilePath

/-- The octet that parts components. -/
def slash : UInt8 :=
  0x2F

/-- The component of one dot. -/
def dot : Octets :=
  [0x2E]

/-- A step of a path. -/
inductive Component
  | root
  | here
  | above
  | name (octets : Octets)
  deriving DecidableEq, Repr

/-- The path that a text spells. -/
def ofText (text : String) : FilePath :=
  ⟨Utf8.encode text⟩

/-- A path as text. -/
def text (path : FilePath) : String :=
  Utf8.decodeLossy path.octets

/-- Whether a path begins at the root. -/
def isRooted (path : FilePath) : Bool :=
  path.octets.head? = some slash

/-- What stands before the first slash-parted piece: the root's slash, or the dot that a relative
path begins with. -/
def front (path : FilePath) : Octets :=
  if path.isRooted then [slash]
  else if path.octets.takeWhile (· ≠ slash) = dot then dot
  else []

/-- The pieces between slashes after the front. -/
def pieces (path : FilePath) : List Octets :=
  (path.octets.drop path.front.length).splitOn slash

/-- Whether a piece counts for nothing. -/
def isVoid (piece : Octets) : Bool :=
  piece = [] || piece = dot

/-- The step that a piece stands for. -/
def stepOf? (piece : Octets) : Option Component :=
  if isVoid piece then none
  else if piece = [0x2E, 0x2E] then some .above
  else some (.name piece)

/-- The steps of a path in order. -/
def components (path : FilePath) : List Component :=
  (if path.isRooted then [.root] else if path.front = dot then [.here] else [])
    ++ path.pieces.filterMap stepOf?

/-- Pieces without those at the end that count for nothing. -/
def dropVoidEnd (pieces : List Octets) : List Octets :=
  (pieces.reverse.dropWhile isVoid).reverse

/-- The path without its last step; the root and the empty path have none. -/
def parent? (path : FilePath) : Option FilePath :=
  match dropVoidEnd path.pieces with
  | [] => if path.front = dot then some ⟨[]⟩ else none
  | kept => some ⟨path.front ++ [slash].intercalate (dropVoidEnd kept.dropLast)⟩

/-- The name at the end of a path. -/
def fileName? (path : FilePath) : Option Octets :=
  match path.components.getLast? with
  | some (.name octets) => some octets
  | _ => none

/-- A path below a directory; a path from the root stays what it is. -/
def join (directory path : FilePath) : FilePath :=
  if path.isRooted then path
  else if directory.octets = [] ∨ directory.octets.getLast? = some slash then
    ⟨directory.octets ++ path.octets⟩
  else ⟨directory.octets ++ slash :: path.octets⟩

/-- A step as text. -/
def Component.text : Component → String
  | .root => "/"
  | .here => "."
  | .above => ".."
  | .name octets => Utf8.decodeLossy octets

/-- The steps of a path below a directory, if the steps of the directory begin it. -/
def below? (path directory : FilePath) : Option (List Component) :=
  if directory.components.isPrefixOf path.components then
    some (path.components.drop directory.components.length)
  else none

end FilePath
end IssueRelay
