import IssueRelay.Dictionary
import IssueRelay.Files.System

/-!
# Directory trees

Files and directories below one directory, as a file system that has nothing else. Paths are
followed step by step: a step of two dots leads to the directory above, and there are no steps out
of a file, not even the one of a single dot.
-/

namespace IssueRelay

/-- What stands at a place of a tree. -/
inductive TreeEntry
  | file (content : Octets)
  | directory
  deriving DecidableEq, Repr

/-- A tree: the name of its top directory, and what stands below it, by the names on the way. -/
structure Tree where
  top : Octets
  entries : Dictionary (List Octets) TreeEntry

namespace Tree

/-- Where the steps of a path have led. -/
inductive Place
  | inside (names : List Octets)
  | outside
  deriving DecidableEq, Repr

/-- A tree of which only the top directory exists. -/
def empty (top : FilePath) : Tree where
  top := top.octets
  entries := ∅

/-- What stands at a place. -/
def entryAt? (tree : Tree) : Place → Option TreeEntry
  | .inside [] | .outside => some .directory
  | .inside names => tree.entries.get? names

/-- The place that a step from a directory leads to. -/
def next (place : Place) (step : Option FilePath.Component) : Place :=
  match place, step with
  | .inside names, some (.name name) => .inside (names ++ [name])
  | .inside [], some .above => .outside
  | .inside names, some .above => .inside names.dropLast
  | _, _ => place

/-- The place that a piece of a path leads to. Outside the tree there are only directories on the
way up. -/
def follow (tree : Tree) (place : Place) (piece : Octets) : Except ReadError Place := do
  let step := FilePath.stepOf? piece
  match tree.entryAt? place, place, step with
  | some (.file _), _, _ => throw .notDirectory
  | none, _, _ | _, .outside, some (.name _) => throw .notFound
  | some .directory, _, _ =>
    let place := next place step
    if (tree.entryAt? place).isSome then return place else throw .notFound

/-- The place that a path leads to. A path that does not begin with the top directory begins
outside the tree; the empty path leads nowhere. -/
def resolve (tree : Tree) (path : FilePath) : Except ReadError Place :=
  match path.octets.splitOn FilePath.slash with
  | [] | [[]] => .error .notFound
  | first :: pieces =>
    if first = tree.top then pieces.foldlM tree.follow (.inside [])
    else (first :: pieces).foldlM tree.follow .outside

/-- What the file at a path holds. -/
def read (tree : Tree) (path : FilePath) : Except ReadError Octets := do
  match tree.entryAt? (← tree.resolve path) with
  | some (.file content) => return content
  | some .directory => throw .isDirectory
  | none => throw .notFound

/-- A tree as a file system. -/
def system (tree : Tree) : FileSystem where
  exists? path := (tree.resolve path).toOption.isSome
  read := tree.read

/-- The names of a path below the top directory. -/
def namesOf (path : FilePath) : List Octets :=
  path.components.filterMap fun
    | .name name => some name
    | _ => none

/-- Makes the directories above a place. -/
def addParents (tree : Tree) (names : List Octets) : Tree :=
  { tree with
    entries := ((List.range names.length).map (names.take ·)).foldl
      (fun entries above =>
        if entries.contains above then entries else entries.insert above .directory)
      tree.entries }

/-- Puts an entry at a path below the top directory, with the directories above it. -/
def add (tree : Tree) (path : FilePath) (entry : TreeEntry) : Tree :=
  let names := namesOf path
  let above := tree.addParents names
  { above with entries := above.entries.insert names entry }

/-- Takes out the entry at a path below the top directory. -/
def remove (tree : Tree) (path : FilePath) : Tree :=
  { tree with entries := tree.entries.erase (namesOf path) }

end Tree
end IssueRelay
