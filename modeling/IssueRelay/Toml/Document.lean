import IssueRelay.Toml.Grammar

/-!
# TOML documents

The table that a document describes. Each assignment belongs to the table of the header before it.
-/

namespace IssueRelay.Toml

/-- A document read so far: its table, and the path of the header read last. -/
structure Draft where
  entries : Entries
  path : List String

namespace Draft

/-- Makes a change in the table that the names but the last of a path lead to. -/
def changeParent? (entries : Entries) (path : List String) (change : String → Entries.Change) :
    Option Entries := do
  Entries.descend .implied (change (← path.getLast?)) path.dropLast .declared entries

/-- A document with one statement more. -/
def add? (draft : Draft) : Statement → Option Draft
  | .header path =>
    (changeParent? draft.entries path Entries.declare).map fun entries => { entries, path }
  | .row path =>
    (changeParent? draft.entries path Entries.addRow).map fun entries => { entries, path }
  | .assignment parts value =>
    (Entries.descend .implied (Entries.assign parts value) draft.path .declared draft.entries).map
      fun entries => { draft with entries }

end Draft

/-- A text without the mark of its encoding in front. -/
def withoutMark : List Char → List Char
  | '\uFEFF' :: rest => rest
  | chars => chars

/-- The entries of the table that a text describes. -/
def read? (text : String) : Option (List (String × Value)) := do
  let statements ← statements? (withoutMark text.toList)
  let draft ← statements.foldlM Draft.add? { entries := [], path := [] }
  return Node.entryValues draft.entries

end IssueRelay.Toml
