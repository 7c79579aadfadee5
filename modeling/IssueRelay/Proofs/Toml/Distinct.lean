import IssueRelay.Toml.Document
import Mathlib.Data.List.Nodup

/-!
# Tables without repeated keys

A key that is given twice is refused, wherever it stands: in the document, below a header, in a row
of an array of tables, between the parts of a dotted key or in an inline table. So no table that a
text describes has a key twice, at any depth (`IssueRelay.Toml.distinct_of_read?`). What carries
the proof is that every change of a table under construction keeps its keys apart.
-/

namespace IssueRelay.Toml

/-- A value in which no table has a key twice. -/
inductive Value.Distinct : Value → Prop
  | text (content : String) : Distinct (.text content)
  | integer (value : Int) : Distinct (.integer value)
  | real (literal : String) : Distinct (.real literal)
  | boolean (value : Bool) : Distinct (.boolean value)
  | moment (literal : String) : Distinct (.moment literal)
  | array {items : List Value} (each : ∀ item ∈ items, Distinct item) : Distinct (.array items)
  | table {entries : List (String × Value)} (keys : (entries.map Prod.fst).Nodup)
      (each : ∀ entry ∈ entries, Distinct entry.2) : Distinct (.table entries)

/-- An entry under construction in which no table has a key twice. -/
inductive Node.Distinct : Node → Prop
  | value {content : Value} (own : content.Distinct) : Distinct (.value content)
  | table (origin : Origin) {entries : Entries} (keys : (entries.map Prod.fst).Nodup)
      (each : ∀ entry ∈ entries, Distinct entry.2) : Distinct (.table origin entries)
  | rows {tables : List Entries} (keys : ∀ entries ∈ tables, (entries.map Prod.fst).Nodup)
      (each : ∀ entries ∈ tables, ∀ entry ∈ entries, Distinct entry.2) : Distinct (.rows tables)

/-- Entries with different keys, in which no table has a key twice. -/
structure Entries.Distinct (entries : Entries) : Prop where
  keys : (entries.map Prod.fst).Nodup
  each : ∀ entry ∈ entries, entry.2.Distinct

/-- What is found under a key is one of the entries. -/
theorem mem_of_lookup {α : Type} {entries : List (String × α)} {key : String} {value : α}
    (found : entries.lookup key = some value) : (key, value) ∈ entries := by
  obtain ⟨before, later, rfl, _⟩ := List.lookup_eq_some_iff.mp found
  exact List.mem_append_right _ List.mem_cons_self

namespace Value.Distinct

variable {entries : List (String × Value)} {key : String} {value : Value}

/-- A table of a value without repeated keys has none itself. -/
theorem nodup (distinct : (Value.table entries).Distinct) : (entries.map Prod.fst).Nodup := by
  cases distinct with
  | table keys each => exact keys

/-- What is found in a table without repeated keys has none inside. -/
theorem of_lookup (distinct : (Value.table entries).Distinct)
    (found : entries.lookup key = some value) : value.Distinct := by
  cases distinct with
  | table keys each => exact each _ (mem_of_lookup found)

end Value.Distinct

/-! ## From tables under construction to values -/

namespace Node

/-- The values of entries are those of their nodes, key by key. -/
theorem entryValues_eq (entries : Entries) :
    entryValues entries = entries.map fun entry => (entry.1, entry.2.toValue) := by
  induction entries with
  | nil => rw [entryValues, List.map_nil]
  | cons entry rest ih => rw [entryValues, ih, List.map_cons]

/-- The values of rows are the tables of their entries. -/
theorem tableValues_eq (tables : List Entries) :
    tableValues tables = tables.map fun entries => .table (entryValues entries) := by
  induction tables with
  | nil => rw [tableValues, List.map_nil]
  | cons entries rest ih => rw [tableValues, ih, List.map_cons]

/-- Entries have the same keys as values. -/
theorem map_fst_entryValues (entries : Entries) :
    (entryValues entries).map Prod.fst = entries.map Prod.fst := by
  rw [entryValues_eq, List.map_map]
  rfl

/-- Entries with different keys, whose values repeat no key, make a table that repeats none. -/
theorem distinct_entryValues {entries : Entries} (keys : (entries.map Prod.fst).Nodup)
    (each : ∀ entry ∈ entries, entry.2.toValue.Distinct) :
    (Value.table (entryValues entries)).Distinct := by
  refine .table (by rwa [map_fst_entryValues]) fun entry member => ?_
  rw [entryValues_eq] at member
  obtain ⟨source, listed, rfl⟩ := List.mem_map.mp member
  exact each source listed

/-- An entry under construction without repeated keys becomes a value without them. -/
theorem Distinct.toValue {node : Node} (distinct : node.Distinct) : node.toValue.Distinct := by
  induction distinct with
  | value own =>
      rw [Node.toValue]
      exact own
  | table origin keys each ih =>
      rw [Node.toValue]
      exact distinct_entryValues keys ih
  | rows keys each ih =>
      rw [Node.toValue, tableValues_eq]
      refine .array fun item member => ?_
      obtain ⟨entries, listed, rfl⟩ := List.mem_map.mp member
      exact distinct_entryValues (keys entries listed) (ih entries listed)

end Node

/-- Entries without repeated keys become a table without them. -/
theorem Entries.Distinct.toValue {entries : Entries} (distinct : entries.Distinct) :
    (Value.table (Node.entryValues entries)).Distinct :=
  Node.distinct_entryValues distinct.keys fun entry member => (distinct.each entry member).toValue

/-! ## Changes of tables -/

namespace Entries

variable {entries after : Entries} {key : String} {node : Node} {change : Change}

/-- An empty table repeats no key. -/
theorem distinct_nil : Distinct [] :=
  ⟨List.nodup_nil, fun _ member => absurd member List.not_mem_nil⟩

/-- What is found among entries without repeated keys has none inside. -/
theorem Distinct.of_lookup (distinct : entries.Distinct) (found : entries.lookup key = some node) :
    node.Distinct :=
  distinct.each _ (mem_of_lookup found)

/-- Entries without repeated keys make a table without them. -/
theorem distinct_table (distinct : entries.Distinct) (origin : Origin) :
    (Node.table origin entries).Distinct :=
  .table origin distinct.keys distinct.each

/-- A table without repeated keys has entries without them. -/
theorem of_distinct_table {origin : Origin} (distinct : (Node.table origin entries).Distinct) :
    entries.Distinct := by
  cases distinct with
  | table _ keys each => exact ⟨keys, each⟩

/-- Rows without repeated keys make an array of tables without them. -/
theorem distinct_rows {tables : List Entries} (each : ∀ entries ∈ tables, entries.Distinct) :
    (Node.rows tables).Distinct :=
  .rows (fun entries member => (each entries member).keys)
    fun entries member => (each entries member).each

/-- In an array of tables without repeated keys, no row repeats one. -/
theorem each_of_distinct_rows {tables : List Entries} (distinct : (Node.rows tables).Distinct) :
    ∀ entries ∈ tables, entries.Distinct := by
  cases distinct with
  | rows keys each => exact fun entries member => ⟨keys entries member, each entries member⟩

/-- A key under which nothing is found is the key of no entry. -/
theorem not_mem_keys_of_lookup (absent : entries.lookup key = none) :
    key ∉ entries.map Prod.fst := by
  intro member
  obtain ⟨entry, listed, rfl⟩ := List.mem_map.mp member
  have different := List.lookup_eq_none_iff.mp absent entry listed
  exact absurd different (by simp)

/-- Putting an entry under a key repeats no key. -/
theorem Distinct.put (distinct : entries.Distinct) (key : String) (own : node.Distinct) :
    (entries.put key node).Distinct := by
  rw [Entries.put]
  split
  case isTrue =>
    have keys : (entries.map fun entry => if entry.1 = key then (key, node) else entry).map
        Prod.fst = entries.map Prod.fst := by
      rw [List.map_map]
      refine List.map_congr_left fun entry _ => ?_
      by_cases same : entry.1 = key <;> simp [same]
    refine ⟨keys ▸ distinct.keys, fun entry member => ?_⟩
    obtain ⟨old, listed, rfl⟩ := List.mem_map.mp member
    split
    · exact own
    · exact distinct.each old listed
  case isFalse absent =>
    have fresh := not_mem_keys_of_lookup (Option.not_isSome_iff_eq_none.mp absent)
    constructor
    · rw [List.map_append, List.map_singleton, ← List.concat_eq_append]
      exact distinct.keys.concat fresh
    · exact List.forall_mem_append.mpr ⟨distinct.each, List.forall_mem_singleton.mpr own⟩

/-- Whether a change of a table keeps all keys apart. -/
def Change.Keeps (change : Change) : Prop :=
  ∀ origin entries after, entries.Distinct → change origin entries = some after → after.Distinct

/-- Assigning a value repeats no key: a key that has one already is refused. -/
theorem keeps_addValue (viaDots : Bool) (key : String) {value : Value} (own : value.Distinct) :
    (addValue viaDots key value).Keeps := by
  intro origin entries after distinct changed
  rw [addValue] at changed
  split_ifs at changed
  cases changed
  exact distinct.put key (.value own)

/-- Declaring a table repeats no key. -/
theorem keeps_declare (key : String) : (declare key).Keeps := by
  intro origin entries after distinct changed
  rw [declare] at changed
  split at changed
  case h_1 absent =>
    cases changed
    exact distinct.put key (distinct_table distinct_nil .declared)
  case h_2 old present =>
    cases changed
    have own := of_distinct_table (distinct.of_lookup present)
    exact distinct.put key (distinct_table own .declared)
  case h_3 => cases changed

/-- Adding a row to an array of tables repeats no key. -/
theorem keeps_addRow (key : String) : (addRow key).Keeps := by
  intro origin entries after distinct changed
  rw [addRow] at changed
  split at changed
  case h_1 absent =>
    cases changed
    exact distinct.put key (distinct_rows (List.forall_mem_singleton.mpr distinct_nil))
  case h_2 tables present =>
    cases changed
    have each := each_of_distinct_rows (distinct.of_lookup present)
    exact distinct.put key (distinct_rows
      (List.forall_mem_append.mpr ⟨each, List.forall_mem_singleton.mpr distinct_nil⟩))
  case h_3 => cases changed

/-- A change further down keeps all keys apart if the change itself does. -/
theorem keeps_descend (made : Origin) (keeps : change.Keeps) (path : List String) :
    (descend made change path).Keeps := by
  induction path with
  | nil => exact keeps
  | cons name path ih =>
      intro origin entries after distinct changed
      rw [descend] at changed
      split at changed
      case h_1 absent =>
        obtain ⟨inner, below, whole⟩ := Option.bind_eq_some_iff.mp changed
        obtain rfl := Option.some.inj whole
        have own := ih _ _ _ distinct_nil below
        exact distinct.put name (distinct_table own made)
      case h_2 => cases changed
      case h_3 former old present =>
        split_ifs at changed
        obtain ⟨inner, below, whole⟩ := Option.bind_eq_some_iff.mp changed
        obtain rfl := Option.some.inj whole
        have own := ih _ _ _ (of_distinct_table (distinct.of_lookup present)) below
        exact distinct.put name (distinct_table own former)
      case h_4 tables present =>
        obtain ⟨last, isLast, changed⟩ := Option.bind_eq_some_iff.mp changed
        obtain ⟨inner, below, whole⟩ := Option.bind_eq_some_iff.mp changed
        obtain rfl := Option.some.inj whole
        have each := each_of_distinct_rows (distinct.of_lookup present)
        have own := ih _ _ _ (each last (List.mem_of_getLast? isLast)) below
        have others := fun row old => each row (List.dropLast_subset tables old)
        exact distinct.put name (distinct_rows
          (List.forall_mem_append.mpr ⟨others, List.forall_mem_singleton.mpr own⟩))

/-- Assigning a value by a dotted key repeats no key. -/
theorem keeps_assign (parts : List String) {value : Value} (own : value.Distinct) :
    (assign parts value).Keeps := by
  intro origin entries after distinct changed
  rw [assign] at changed
  obtain ⟨key, _, changed⟩ := Option.bind_eq_some_iff.mp changed
  exact keeps_descend .dotted (keeps_addValue _ key own) _ origin entries after distinct changed

/-- Assigning values one after the other repeats no key. -/
theorem distinct_of_assignAll? {pairs : List (List String × Value)}
    (each : ∀ pair ∈ pairs, pair.2.Distinct) (distinct : entries.Distinct)
    (made : pairs.foldlM (fun entries pair => assign pair.1 pair.2 .declared entries) entries =
      some after) : after.Distinct := by
  induction pairs generalizing entries with
  | nil =>
      obtain rfl := Option.some.inj made
      exact distinct
  | cons pair rest ih =>
      obtain ⟨next, first, others⟩ := Option.bind_eq_some_iff.mp made
      obtain ⟨own, each⟩ := List.forall_mem_cons.mp each
      exact ih each (keeps_assign _ own _ _ _ distinct first) others

/-- An inline table is refused if it gives a key twice. -/
theorem distinct_of_ofPairs? {pairs : List (List String × Value)}
    (each : ∀ pair ∈ pairs, pair.2.Distinct) (made : ofPairs? pairs = some entries) :
    entries.Distinct :=
  distinct_of_assignAll? each distinct_nil made

end Entries

/-! ## What is read -/

/-- What it means for all that a reader gives to have a property. -/
def Gives {α : Type} (read : Front α) (property : α → Prop) : Prop :=
  ∀ chars result rest, read chars = some (result, rest) → property result

variable {read : Front Value}

/-- An assignment is read with a value without repeated keys, if values are. -/
theorem gives_assignment? (values : Gives read Value.Distinct) :
    Gives (assignment? read) fun pair => pair.2.Distinct := by
  intro chars pair rest made
  obtain ⟨⟨parts, _⟩, _, made⟩ := Option.bind_eq_some_iff.mp made
  obtain ⟨_, _, made⟩ := Option.bind_eq_some_iff.mp made
  obtain ⟨⟨value, _⟩, given, made⟩ := Option.bind_eq_some_iff.mp made
  cases Option.some.inj made
  exact values _ value _ given

/-- The items of an array are read without repeated keys, if values are. -/
theorem gives_items? (values : Gives read Value.Distinct) (bound : Nat) :
    Gives (items? read bound) fun items => ∀ item ∈ items, item.Distinct := by
  induction bound with
  | zero =>
      intro chars items rest made
      cases made
  | succ bound ih =>
      intro chars items rest made
      rw [items?] at made
      split at made
      case h_1 =>
        cases made
        simp
      case h_2 =>
        obtain ⟨⟨first, _⟩, given, made⟩ := Option.bind_eq_some_iff.mp made
        have own := values _ first _ given
        dsimp only at made
        split at made
        case h_1 =>
          obtain ⟨⟨others, _⟩, more, made⟩ := Option.bind_eq_some_iff.mp made
          cases Option.some.inj made
          exact List.forall_mem_cons.mpr ⟨own, ih _ others _ more⟩
        case h_2 =>
          cases Option.some.inj made
          simpa using own
        case h_3 => cases made

/-- The pairs of an inline table are read without repeated keys inside, if values are. -/
theorem gives_pairs? (values : Gives read Value.Distinct) (bound : Nat) :
    Gives (pairs? read bound) fun pairs => ∀ pair ∈ pairs, pair.2.Distinct := by
  induction bound with
  | zero =>
      intro chars pairs rest made
      cases made
  | succ bound ih =>
      intro chars pairs rest made
      rw [pairs?] at made
      obtain ⟨⟨first, _⟩, given, made⟩ := Option.bind_eq_some_iff.mp made
      have own := gives_assignment? values _ first _ given
      dsimp only at made
      split at made
      case h_1 =>
        obtain ⟨⟨others, _⟩, more, made⟩ := Option.bind_eq_some_iff.mp made
        cases Option.some.inj made
        exact List.forall_mem_cons.mpr ⟨own, ih _ others _ more⟩
      case h_2 =>
        cases Option.some.inj made
        simpa using own
      case h_3 => cases made

/-- An inline table is made of pairs only if these repeat no key. -/
theorem distinct_of_inline {pairs : List (List String × Value)} {value : Value}
    {later rest : List Char} (each : ∀ pair ∈ pairs, pair.2.Distinct)
    (made : (do return (.table (Node.entryValues (← Entries.ofPairs? pairs)), later)) =
      some (value, rest)) : value.Distinct := by
  obtain ⟨entries, listed, same⟩ := Option.bind_eq_some_iff.mp made
  cases Option.some.inj same
  exact (Entries.distinct_of_ofPairs? each listed).toValue

/-- An inline table is read without repeated keys, if values are. -/
theorem gives_inlineTable? (values : Gives read Value.Distinct) :
    Gives (inlineTable? read) Value.Distinct := by
  intro chars value rest made
  rw [inlineTable?] at made
  split at made
  case h_1 => exact distinct_of_inline (List.forall_mem_nil _) made
  case h_2 =>
    obtain ⟨⟨pairs, _⟩, listed, made⟩ := Option.bind_eq_some_iff.mp made
    exact distinct_of_inline (gives_pairs? values _ _ pairs _ listed) made

/-- A text has no keys to repeat. -/
theorem gives_textValue? : Gives textValue? Value.Distinct := by
  intro chars value rest made
  obtain ⟨_, _, same⟩ := Option.map_eq_some_iff.mp made
  cases same
  exact .text _

/-- A bare word has no keys to repeat. -/
theorem distinct_of_scalar? {chars : List Char} {value : Value} (spelled : scalar? chars =
    some value) : value.Distinct := by
  rw [scalar?] at spelled
  split_ifs at spelled
  · cases spelled
    exact .boolean true
  · cases spelled
    exact .boolean false
  · cases spelled
    exact .moment _
  · cases spelled
    exact .real _
  · obtain ⟨number, _, rfl⟩ := Option.map_eq_some_iff.mp spelled
    exact .integer number

/-- What is read of a bare word has no keys to repeat. -/
theorem gives_bare? : Gives bare? Value.Distinct := by
  intro chars value rest made
  simp only [bare?] at made
  split_ifs at made
  · cases made
    exact .moment _
  · obtain ⟨scalar, spelled, same⟩ := Option.map_eq_some_iff.mp made
    cases same
    exact distinct_of_scalar? spelled

/-- A value of whatever depth is read without repeated keys. -/
theorem gives_valueWithin? (depth : Nat) : Gives (valueWithin? depth) Value.Distinct := by
  induction depth using Nat.strongRecOn with
  | ind depth ih =>
      intro chars value rest made
      rw [valueWithin?.eq_def] at made
      split at made
      case h_1 => exact gives_textValue? _ value _ made
      case h_2 => exact gives_textValue? _ value _ made
      case h_3 inner _ =>
        obtain ⟨⟨items, _⟩, listed, same⟩ := Option.map_eq_some_iff.mp made
        cases same
        exact .array (gives_items? (ih inner inner.lt_succ_self) _ _ items _ listed)
      case h_4 inner _ => exact gives_inlineTable? (ih inner inner.lt_succ_self) _ value _ made
      case h_5 => exact gives_bare? _ value _ made

/-! ## Documents -/

/-- A statement that assigns no value in which a table has a key twice. -/
def Statement.Distinct : Statement → Prop
  | .assignment _ value => value.Distinct
  | _ => True

/-- A statement is read without repeated keys. -/
theorem gives_statement? : Gives statement? Statement.Distinct := by
  intro chars statement rest made
  rw [statement?.eq_def] at made
  split at made
  case h_1 =>
    obtain ⟨⟨path, _⟩, _, made⟩ := Option.bind_eq_some_iff.mp made
    obtain ⟨_, _, made⟩ := Option.bind_eq_some_iff.mp made
    obtain ⟨_, _, made⟩ := Option.bind_eq_some_iff.mp made
    cases Option.some.inj made
    trivial
  case h_2 =>
    obtain ⟨⟨path, _⟩, _, made⟩ := Option.bind_eq_some_iff.mp made
    obtain ⟨_, _, made⟩ := Option.bind_eq_some_iff.mp made
    cases Option.some.inj made
    trivial
  case h_3 =>
    obtain ⟨⟨⟨parts, value⟩, _⟩, assigned, made⟩ := Option.bind_eq_some_iff.mp made
    cases Option.some.inj made
    exact gives_assignment? (gives_valueWithin? depthLimit) _ (parts, value) _ assigned

/-- All statements of a document are read without repeated keys. -/
theorem distinct_of_statementsWithin? (bound : Nat) {chars : List Char}
    {statements : List Statement} (made : statementsWithin? bound chars = some statements) :
    ∀ statement ∈ statements, statement.Distinct := by
  induction bound generalizing chars statements with
  | zero => cases made
  | succ bound ih =>
      rw [statementsWithin?] at made
      split at made
      case h_1 =>
        cases made
        simp
      case h_2 =>
        obtain ⟨⟨first, _⟩, given, made⟩ := Option.bind_eq_some_iff.mp made
        obtain ⟨_, _, made⟩ := Option.bind_eq_some_iff.mp made
        obtain ⟨others, more, made⟩ := Option.bind_eq_some_iff.mp made
        cases Option.some.inj made
        exact List.forall_mem_cons.mpr ⟨gives_statement? _ first _ given, ih more⟩

namespace Draft

variable {draft later : Draft}

/-- A change that repeats no key repeats none wherever it is made. -/
theorem distinct_of_changeParent? {entries after : Entries} {path : List String}
    {change : String → Entries.Change} (keeps : ∀ key, (change key).Keeps)
    (distinct : entries.Distinct) (changed : changeParent? entries path change = some after) :
    after.Distinct := by
  obtain ⟨key, _, changed⟩ := Option.bind_eq_some_iff.mp changed
  exact Entries.keeps_descend .implied (keeps key) _ _ entries after distinct changed

/-- One statement more keeps all keys of a document apart. -/
theorem distinct_of_add? {statement : Statement} (own : statement.Distinct)
    (distinct : draft.entries.Distinct) (added : draft.add? statement = some later) :
    later.entries.Distinct := by
  cases statement with
  | header path =>
      obtain ⟨after, changed, rfl⟩ := Option.map_eq_some_iff.mp added
      exact distinct_of_changeParent? Entries.keeps_declare distinct changed
  | row path =>
      obtain ⟨after, changed, rfl⟩ := Option.map_eq_some_iff.mp added
      exact distinct_of_changeParent? Entries.keeps_addRow distinct changed
  | assignment parts value =>
      obtain ⟨after, changed, rfl⟩ := Option.map_eq_some_iff.mp added
      have keeps : (Entries.assign parts value).Keeps := Entries.keeps_assign parts own
      exact Entries.keeps_descend .implied keeps _ _ _ after distinct changed

/-- Adding statements one after the other repeats no key. -/
theorem distinct_of_addAll? {statements : List Statement}
    (each : ∀ statement ∈ statements, statement.Distinct) (distinct : draft.entries.Distinct)
    (added : statements.foldlM add? draft = some later) : later.entries.Distinct := by
  induction statements generalizing draft with
  | nil =>
      obtain rfl := Option.some.inj added
      exact distinct
  | cons statement rest ih =>
      obtain ⟨next, first, others⟩ := Option.bind_eq_some_iff.mp added
      obtain ⟨own, each⟩ := List.forall_mem_cons.mp each
      exact ih each (distinct_of_add? own distinct first) others

end Draft

/-- No table that a text describes has a key twice, at any depth. -/
theorem distinct_of_read? {text : String} {entries : List (String × Value)}
    (described : read? text = some entries) : (Value.table entries).Distinct := by
  obtain ⟨statements, listed, described⟩ := Option.bind_eq_some_iff.mp described
  obtain ⟨draft, added, described⟩ := Option.bind_eq_some_iff.mp described
  obtain rfl := Option.some.inj described
  have each := distinct_of_statementsWithin? _ listed
  exact (Draft.distinct_of_addAll? each Entries.distinct_nil added).toValue

end IssueRelay.Toml
