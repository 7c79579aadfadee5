import IssueRelay.Toml.Value

/-!
# Tables under construction

A document builds its tables piece by piece. A table that only stands between others in a header
may get a header of its own later, but only one; a table that stands between the parts of a dotted
key gets more entries from dotted keys alone; and a finished value gets none. An array of tables
is extended at its end, and a name that leads into one leads into its last table.
-/

namespace IssueRelay.Toml

/-- How a table has come to be: by its own header, between the names of a header, or between the
parts of a dotted key. -/
inductive Origin
  | declared
  | implied
  | dotted
  deriving DecidableEq, Repr

/-- An entry of a table under construction. -/
inductive Node
  | value (content : Value)
  | table (origin : Origin) (entries : List (String × Node))
  | rows (tables : List (List (String × Node)))
  deriving Repr, Inhabited

/-- The entries of a table under construction. -/
abbrev Entries :=
  List (String × Node)

namespace Node

mutual

/-- An entry as a value. -/
def toValue : Node → Value
  | .value content => content
  | .table _ entries => .table (entryValues entries)
  | .rows tables => .array (tableValues tables)

/-- Entries as values. -/
def entryValues : Entries → List (String × Value)
  | [] => []
  | (key, node) :: rest => (key, toValue node) :: entryValues rest

/-- Tables as values. -/
def tableValues : List Entries → List Value
  | [] => []
  | entries :: rest => .table (entryValues entries) :: tableValues rest

end

end Node

namespace Entries

/-- Puts an entry at the end, or in the place of the one with its key. -/
def put (entries : Entries) (key : String) (node : Node) : Entries :=
  if (entries.lookup key).isSome then
    entries.map fun entry => if entry.1 = key then (key, node) else entry
  else entries ++ [(key, node)]

/-- A change of a table, given how it has come to be. -/
abbrev Change :=
  Origin → Entries → Option Entries

/-- Adds a value under a new key. -/
def addValue (viaDots : Bool) (key : String) (value : Value) : Change := fun origin entries =>
  if (viaDots && origin ≠ .dotted) || (entries.lookup key).isSome then none
  else some (entries.put key (.value value))

/-- Declares the table under a key. -/
def declare (key : String) : Change := fun _ entries =>
  match entries.lookup key with
  | none => some (entries.put key (.table .declared []))
  | some (.table .implied old) => some (entries.put key (.table .declared old))
  | some _ => none

/-- Adds a table to the array of tables under a key. -/
def addRow (key : String) : Change := fun _ entries =>
  match entries.lookup key with
  | none => some (entries.put key (.rows [[]]))
  | some (.rows tables) => some (entries.put key (.rows (tables ++ [[]])))
  | some _ => none

/-- Makes a change in the table that a path of names leads to. Missing tables on the way are made
with the given origin; the parts of a dotted key lead into no declared table. -/
def descend (made : Origin) (change : Change) : List String → Change
  | [], origin, entries => change origin entries
  | name :: path, _, entries => do
    match entries.lookup name with
    | none => return entries.put name (.table made (← descend made change path made []))
    | some (.value _) => none
    | some (.table origin old) =>
      if made = .dotted ∧ origin = .declared then none
      else return entries.put name (.table origin (← descend made change path origin old))
    | some (.rows tables) =>
      let last ← tables.getLast?
      return entries.put name
        (.rows (tables.dropLast ++ [← descend made change path .declared last]))

/-- Adds a value under a key of one or more parts. -/
def assign (parts : List String) (value : Value) : Change := fun origin entries => do
  let key ← parts.getLast?
  descend .dotted (addValue (parts.length > 1) key value) parts.dropLast origin entries

/-- The table of an inline table, whose entries are given in order. -/
def ofPairs? (pairs : List (List String × Value)) : Option Entries :=
  pairs.foldlM (fun entries (parts, value) => assign parts value .declared entries) []

end Entries
end IssueRelay.Toml
