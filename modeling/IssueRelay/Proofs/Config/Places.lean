import IssueRelay.Config.Read
import IssueRelay.Proofs.Toml.Distinct

/-!
# Places of names in a configuration

Names stand outside of all sections or in one of the three that are read. At each of these places a
record is read, and only its fields matter: a change that leaves what is found under their names
alone leaves the configuration alone (`IssueRelay.Config.ofEntries?_changeAt`). And each of them
does matter: there are documents that describe another configuration without it
(`IssueRelay.Config.hasEffect_iff`).
-/

namespace IssueRelay.Config

open Toml (Value)

/-- The entries of a table. -/
abbrev Table :=
  List (String × Value)

/-- The sections that are read. -/
def sections : List String :=
  ["analyzer", "server", "notifications"]

/-- Where names stand: outside of all sections, or in one that is read. -/
def places : List (Option String) :=
  none :: sections.map some

/-- The fields of the record that is read at a place. -/
def fieldsAt : Option String → List String
  | none => sections
  | some "analyzer" => analyzerNames
  | some "server" => serverNames
  | some "notifications" => notificationNames
  | some _ => []

/-- The table at a place of a document, if there is one. -/
def tableAt? (entries : Table) : Option String → Option Table
  | none => some entries
  | some name =>
    match entries.lookup name with
    | some (.table fields) => some fields
    | _ => none

/-- The names at a place of a document. -/
def namesAt (entries : Table) (place : Option String) : List String :=
  ((tableAt? entries place).getD []).map Prod.fst

/-- A value with other entries, if it is a table. -/
def changeTable (change : Table → Table) : Value → Value
  | .table fields => .table (change fields)
  | value => value

/-- A document with other entries at a place, if there is a table. -/
def changeAt (change : Table → Table) : Option String → Table → Table
  | none, entries => change entries
  | some name, entries =>
    entries.map fun entry =>
      if entry.1 = name then (entry.1, changeTable change entry.2) else entry

/-- Whether a change leaves what is found under some names alone. -/
def Spares (names : List String) (change : Table → Table) : Prop :=
  ∀ table, ∀ name ∈ names, (change table).lookup name = table.lookup name

variable {change : Table → Table} {place other : Option String} {entries later table : Table}
  {names : List String} {name key : String}

/-- Beside the document itself, the places are the sections that are read. -/
theorem some_mem_places : some name ∈ places ↔ name ∈ sections := by
  simp [places]

/-! ## Looking into a changed document -/

/-- Changing a section goes entry by entry. -/
theorem changeAt_some_cons (entry : String × Value) (rest : Table) :
    changeAt change (some name) (entry :: rest) =
      (entry.1, if entry.1 = name then changeTable change entry.2 else entry.2) ::
        changeAt change (some name) rest := by
  rw [changeAt, changeAt, List.map_cons]
  split <;> rfl

/-- Only under the name of the section another value is found. -/
theorem lookup_changeAt_some (entries : Table) (name key : String) :
    (changeAt change (some name) entries).lookup key =
      if key = name then (entries.lookup key).map (changeTable change)
      else entries.lookup key := by
  induction entries with
  | nil => split <;> rfl
  | cons entry rest ih =>
      rw [changeAt_some_cons, List.lookup_cons, List.lookup_cons]
      by_cases asked : key = entry.1
      · subst asked
        simp only [BEq.rfl]
        split <;> rfl
      · rw [beq_false_of_ne asked]
        exact ih

/-- Changing a section leaves the names outside of it. -/
theorem map_fst_changeAt_some (entries : Table) (name : String) :
    (changeAt change (some name) entries).map Prod.fst = entries.map Prod.fst := by
  rw [changeAt, List.map_map]
  refine List.map_congr_left fun entry _ => ?_
  rw [Function.comp_apply]
  split <;> rfl

/-- At the place of a change stands the changed table. -/
theorem tableAt?_changeAt (entries : Table) (place : Option String) :
    tableAt? (changeAt change place entries) place = (tableAt? entries place).map change := by
  cases place with
  | none => rfl
  | some name =>
      rw [tableAt?, tableAt?, lookup_changeAt_some, if_pos rfl]
      cases entries.lookup name with
      | none => rfl
      | some value => cases value <;> rfl

/-- A change that spares the fields of its place leaves the names at the others. -/
theorem namesAt_changeAt_of_ne (spares : Spares (fieldsAt place) change) (entries : Table)
    (known : other ∈ places) (different : other ≠ place) :
    namesAt (changeAt change place entries) other = namesAt entries other := by
  rw [namesAt, namesAt]
  cases place with
  | none =>
      cases other with
      | none => contradiction
      | some name =>
          have same := spares entries name (some_mem_places.mp known)
          rw [tableAt?, tableAt?, changeAt, same]
  | some within =>
      cases other with
      | none => exact map_fst_changeAt_some entries within
      | some name =>
          have apart : name ≠ within := fun same => different (congrArg some same)
          rw [tableAt?, tableAt?, lookup_changeAt_some, if_neg apart]

/-! ## What a configuration is read from -/

/-- A change that spares the names of a record is not seen when the record is read. -/
theorem fields?_changeTable (spares : Spares names change) (value : Value) :
    fields? names (changeTable change value) = fields? names value := by
  cases value with
  | table entries =>
      refine congrArg some (funext fun name => ?_)
      by_cases asked : names.contains name
      · rw [if_pos asked, if_pos asked, spares entries name (List.contains_iff_mem.mp asked)]
      · rw [if_neg asked, if_neg asked]
  | _ => rfl

/-- A reader that asks for fields alone does not tell sections apart that say the same of them. -/
theorem default?_congr {α : Type} (absent : α) {read : Reader α} (names : List String)
    (reads : ∀ former latter, fields? names former = fields? names latter →
      read former = read latter)
    {left right : Option Value} (same : left.map (fields? names) = right.map (fields? names)) :
    default? absent read left = default? absent read right := by
  cases left with
  | none =>
      cases right with
      | none => rfl
      | some value => cases same
  | some former =>
      cases right with
      | none => cases same
      | some latter => exact reads former latter (Option.some.inj same)

/-- Documents describe the same configuration if their sections say the same of their fields. -/
theorem ofEntries?_congr
    (same : ∀ name ∈ sections, (later.lookup name).map (fields? (fieldsAt (some name))) =
      (entries.lookup name).map (fields? (fieldsAt (some name)))) :
    ofEntries? later = ofEntries? entries := by
  have analyzer : default? .standard analyzer? (later.lookup "analyzer") =
      default? .standard analyzer? (entries.lookup "analyzer") :=
    default?_congr _ analyzerNames (fun _ _ alike => by rw [analyzer?, analyzer?, alike])
      (same "analyzer" (by decide))
  have server : option? server? (later.lookup "server") =
      option? server? (entries.lookup "server") :=
    default?_congr _ serverNames (fun _ _ alike => by rw [server?, server?, alike])
      (same "server" (by decide))
  have notifications : default? false notifications? (later.lookup "notifications") =
      default? false notifications? (entries.lookup "notifications") :=
    default?_congr _ notificationNames
      (fun _ _ alike => by rw [notifications?, notifications?, alike])
      (same "notifications" (by decide))
  rw [ofEntries?, ofEntries?, analyzer, server, notifications]

/-- A change that spares the fields of its place leaves the configuration. -/
theorem ofEntries?_changeAt (spares : Spares (fieldsAt place) change) (entries : Table) :
    ofEntries? (changeAt change place entries) = ofEntries? entries := by
  refine ofEntries?_congr fun name listed => ?_
  cases place with
  | none => rw [changeAt, spares entries name listed]
  | some within =>
      rw [lookup_changeAt_some]
      split
      case isTrue own =>
        subst own
        rw [Option.map_map]
        exact Option.map_congr fun value _ => fields?_changeTable spares value
      case isFalse => rfl

/-! ## Names with effect -/

/-- A document without a name at a place. -/
def removeAt (place : Option String) (name : String) : Table → Table :=
  changeAt (·.filter (·.1 ≠ name)) place

/-- A name has an effect at a place if some document describes another configuration without it. -/
def HasEffect (place : Option String) (name : String) : Prop :=
  ∃ entries, (Value.table entries).Distinct ∧
    ofEntries? (removeAt place name entries) ≠ ofEntries? entries

/-- Without the entries of a name, the other names are found as before. -/
theorem lookup_filter_ne (different : key ≠ name) (entries : Table) :
    (entries.filter (·.1 ≠ name)).lookup key = entries.lookup key := by
  induction entries with
  | nil => rfl
  | cons entry rest ih =>
      rw [List.filter_cons]
      split
      case isTrue => rw [List.lookup_cons, List.lookup_cons, ih]
      case isFalse dropped =>
        have own : entry.1 = name := by simpa using dropped
        rw [ih, List.lookup_cons, own, beq_false_of_ne different]

/-- Removing a name spares all others. -/
theorem spares_filter (unknown : name ∉ names) : Spares names (·.filter (·.1 ≠ name)) :=
  fun entries _ listed => lookup_filter_ne (ne_of_mem_of_not_mem listed unknown) entries

/-- Removing a name that is not a field leaves the configuration. -/
theorem ofEntries?_removeAt (unknown : name ∉ fieldsAt place) (entries : Table) :
    ofEntries? (removeAt place name entries) = ofEntries? entries :=
  ofEntries?_changeAt (spares_filter unknown) entries

/-- A document that says of no field what would hold without it. -/
def outspoken : Table :=
  [("analyzer", .table [("command", .array [.text "scan"]), ("debounce_ms", .integer 1)]),
    ("server", .table [("url", .text "https://host"), ("project_key", .text "shop"),
      ("branch", .text "main"), ("token", .text "secret")]),
    ("notifications", .table [("first_secret_detected", .boolean true)])]

/-- No name stands twice in the outspoken document. -/
theorem distinct_outspoken : (Value.table outspoken).Distinct := by
  refine .table (by decide) ?_
  simp only [outspoken, List.forall_mem_cons]
  refine ⟨.table (by decide) ?_, .table (by decide) ?_, .table (by decide) ?_, by simp⟩
  · simp only [List.forall_mem_cons]
    refine ⟨.array ?_, .integer 1, by simp⟩
    simp only [List.forall_mem_cons]
    exact ⟨.text _, by simp⟩
  · simp only [List.forall_mem_cons]
    exact ⟨.text _, .text _, .text _, .text _, by simp⟩
  · simp only [List.forall_mem_cons]
    exact ⟨.boolean true, by simp⟩

/-- The names with an effect at a place are the fields of its record. -/
theorem hasEffect_iff (known : place ∈ places) : HasEffect place name ↔ name ∈ fieldsAt place := by
  constructor
  · rintro ⟨entries, _, changed⟩
    exact Decidable.byContradiction fun unknown =>
      changed (ofEntries?_removeAt unknown entries)
  · intro field
    have each : ∀ place ∈ places, ∀ name ∈ fieldsAt place,
        ofEntries? (removeAt place name outspoken) ≠ ofEntries? outspoken := by
      decide +kernel
    exact ⟨outspoken, distinct_outspoken, each place known name field⟩

end IssueRelay.Config
