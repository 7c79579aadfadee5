import IssueRelay.Config.Load
import IssueRelay.Proofs.Config.Places
import Mathlib.Data.List.Perm.Basic

/-!
# Warnings about names without effect

The names that are known are written down twice: in the records that are read, and in the lists that
warnings go by. The two agree. So a document that is loaded is warned about exactly at the names
that have no effect, each of them once; taking them all away changes nothing but the warnings, and
one more of them changes nothing but to be warned about
(`IssueRelay.Config.warnings_name_what_has_no_effect`).
-/

namespace IssueRelay.Config

open Toml (Value)

variable {change : Table → Table} {entries : Table} {place : Option String} {name : String}
  {warning other : Warning}

/-! ## What is warned about -/

/-- Unknown are the names in a table that are not known. -/
theorem mem_unknownNames {known : List String} :
    name ∈ unknownNames known entries ↔ name ∈ entries.map Prod.fst ∧ name ∉ known := by
  simp [unknownNames]

/-- Where no name stands twice, each is unknown at most once. -/
theorem nodup_unknownNames (known : List String) (nodup : (entries.map Prod.fst).Nodup) :
    (unknownNames known entries).Nodup :=
  (List.mergeSort_perm _ _).nodup_iff.mpr (nodup.filter _)

/-- The warnings about the names at one place. -/
def warningsAt (entries : Table) (place : Option String) : List Warning :=
  (unknownNames (fieldsAt place) ((tableAt? entries place).getD [])).map
    ({ within := place, name := · })

/-- The warnings about a section are those about its place. -/
theorem sectionWarnings_eq (entries : Table) (name : String) :
    sectionWarnings entries name (fieldsAt (some name)) = warningsAt entries (some name) := by
  have nothing : unknownNames (fieldsAt (some name)) [] = [] := by simp [unknownNames]
  rw [sectionWarnings, warningsAt, tableAt?]
  cases entries.lookup name with
  | none => simp [nothing]
  | some value => cases value <;> simp [nothing]

/-- The lists of known names are the fields of the records. -/
theorem warnings_eq (entries : Table) : warnings entries = places.flatMap (warningsAt entries) := by
  have known : knownFields = sections.map fun name => (name, fieldsAt (some name)) := rfl
  rw [warnings, known, places, List.flatMap_cons, List.flatMap_map, List.flatMap_map]
  simp only [sectionWarnings_eq]
  rfl

/-- Warned is about the names at a place that are not fields there. -/
theorem mem_warningsAt : warning ∈ warningsAt entries place ↔
    warning.within = place ∧ warning.name ∈ namesAt entries place ∧
      warning.name ∉ fieldsAt place := by
  rw [warningsAt, List.mem_map]
  constructor
  · rintro ⟨name, unknown, rfl⟩
    exact ⟨rfl, mem_unknownNames.mp unknown⟩
  · rintro ⟨rfl, unknown⟩
    exact ⟨warning.name, mem_unknownNames.mpr unknown, rfl⟩

/-- Warned is about the names at the places that are read, except for the fields of records. -/
theorem mem_warnings : warning ∈ warnings entries ↔
    warning.within ∈ places ∧ warning.name ∈ namesAt entries warning.within ∧
      warning.name ∉ fieldsAt warning.within := by
  rw [warnings_eq, List.mem_flatMap]
  constructor
  · rintro ⟨place, known, listed⟩
    obtain ⟨rfl, unknown⟩ := mem_warningsAt.mp listed
    exact ⟨known, unknown⟩
  · rintro ⟨known, unknown⟩
    exact ⟨_, known, mem_warningsAt.mpr ⟨rfl, unknown⟩⟩

/-- A change at a place that leaves the fields of its record alone leaves the warnings about other
places alone. -/
theorem mem_warnings_changeAt (spares : Spares (fieldsAt place) change) :
    warning ∈ warnings (changeAt change place entries) ↔
      if warning.within = place then
        place ∈ places ∧ warning.name ∈ namesAt (changeAt change place entries) place ∧
          warning.name ∉ fieldsAt place
      else warning ∈ warnings entries := by
  rw [mem_warnings]
  split
  case isTrue own => rw [own]
  case isFalse different =>
    rw [mem_warnings]
    exact and_congr_right fun known => by
      rw [namesAt_changeAt_of_ne spares entries known different]

/-- Where no name stands twice at a place, nothing is warned about twice. -/
theorem nodup_warnings (nodup : ∀ place ∈ places, (namesAt entries place).Nodup) :
    (warnings entries).Nodup := by
  rw [warnings_eq, List.nodup_flatMap]
  constructor
  · intro place known
    have injective : Function.Injective (Warning.mk place) := fun _ _ same => by
      cases same
      rfl
    exact (nodup_unknownNames _ (nodup place known)).map injective
  · have apart : places.Nodup := by decide
    refine apart.imp fun {first second} different => ?_
    intro warning former latter
    exact different ((mem_warningsAt.mp former).1.symm.trans (mem_warningsAt.mp latter).1)

/-- A change at a place that leaves the fields of its record alone brings no name about twice if it
does not at this place. -/
theorem nodup_warnings_changeAt (spares : Spares (fieldsAt place) change)
    (nodup : ∀ place ∈ places, (namesAt entries place).Nodup)
    (own : (namesAt (changeAt change place entries) place).Nodup) :
    (warnings (changeAt change place entries)).Nodup := by
  refine nodup_warnings fun within listed => ?_
  by_cases same : within = place
  · rw [same]
    exact own
  · rw [namesAt_changeAt_of_ne spares entries listed same]
    exact nodup within listed

/-- In a document without repeated names, none stands twice at a place. -/
theorem nodup_namesAt (distinct : (Value.table entries).Distinct) (place : Option String) :
    (namesAt entries place).Nodup := by
  rw [namesAt]
  cases place with
  | none => exact distinct.nodup
  | some name =>
      rw [tableAt?]
      split
      case h_1 fields found => exact (distinct.of_lookup found).nodup
      case h_2 => exact List.nodup_nil

/-! ## How warnings are worded -/

/-- What the wording of a warning says before the name, after what they all begin with. -/
def lead : Option String → List Char
  | none => ": '".toList
  | some name => " in [".toList ++ name.toList ++ "]".toList ++ ": '".toList

/-- A warning says first what they all say, then where, then the name between quotes. -/
theorem toList_text (warning : Warning) :
    warning.text.toList = "Unknown config option".toList ++
      (lead warning.within ++ warning.name.toList ++ "'".toList) := by
  obtain ⟨within, name⟩ := warning
  -- Equations of definitions with texts in them are dear, so these are stated by hand.
  cases within with
  | none =>
      have spelled : Warning.text ⟨none, name⟩ =
          "Unknown config option" ++ "" ++ ": '" ++ name ++ "'" := rfl
      have led : lead none = ": '".toList := rfl
      simp only [spelled, led, String.append_empty, String.toList_append, List.append_assoc]
  | some header =>
      have spelled : Warning.text ⟨some header, name⟩ =
          "Unknown config option" ++ (" in [" ++ header ++ "]") ++ ": '" ++ name ++ "'" := rfl
      have led : lead (some header) =
          " in [".toList ++ header.toList ++ "]".toList ++ ": '".toList := rfl
      simp only [spelled, led, String.toList_append, List.append_assoc]

/-- Different warnings are worded differently. -/
theorem eq_of_text (known : warning.within ∈ places) (too : other.within ∈ places)
    (alike : warning.text = other.text) : warning = other := by
  have apart : ∀ first ∈ places, ∀ second ∈ places, lead first <+: lead second →
      first = second := by
    decide +kernel
  have whole := congrArg String.toList alike
  rw [toList_text, toList_text] at whole
  have rest := List.append_cancel_right (List.append_cancel_left whole)
  have same : warning.within = other.within := by
    rcases List.prefix_or_prefix_of_prefix (List.prefix_append _ _) (rest ▸ List.prefix_append _ _)
      with begins | begins
    · exact (apart _ too _ known begins).symm
    · exact apart _ known _ too begins
  rw [same] at rest
  have names := String.toList_inj.mp (List.append_cancel_left rest)
  obtain ⟨within, name⟩ := warning
  obtain ⟨within', name'⟩ := other
  cases same
  cases names
  rfl

/-! ## Taking names away -/

/-- A document without the names that some warnings are about. -/
def without (reported : List Warning) (entries : Table) : Table :=
  reported.foldl (fun entries warning => removeAt warning.within warning.name entries) entries

/-- A name that is removed is gone from its place, and only it. -/
theorem namesAt_removeAt (place : Option String) (name : String) (entries : Table) :
    namesAt (removeAt place name entries) place = (namesAt entries place).filter (· ≠ name) := by
  rw [namesAt, namesAt, removeAt, tableAt?_changeAt]
  cases tableAt? entries place with
  | none => rfl
  | some table =>
      rw [Option.map_some, Option.getD_some, Option.getD_some, List.filter_map]
      rfl

/-- Taking away a name that is warned about takes away that warning alone. -/
theorem mem_warnings_removeAt (unknown : warning.name ∉ fieldsAt warning.within) :
    other ∈ warnings (removeAt warning.within warning.name entries) ↔
      other ∈ warnings entries ∧ other ≠ warning := by
  obtain ⟨place, name⟩ := warning
  obtain ⟨within, own⟩ := other
  rw [removeAt, mem_warnings_changeAt (spares_filter unknown), ← removeAt]
  dsimp only
  split
  case isTrue same =>
    subst same
    rw [mem_warnings, namesAt_removeAt, List.mem_filter, decide_eq_true_eq, ne_eq, ne_eq,
      Warning.mk.injEq, and_iff_right rfl]
    tauto
  case isFalse different =>
    rw [ne_eq, Warning.mk.injEq, and_iff_left fun same => different same.1]

/-- Taking names away that are warned about leaves the other warnings and the configuration. -/
theorem without_reported {reported : List Warning}
    (unknown : ∀ warning ∈ reported, warning.name ∉ fieldsAt warning.within) (entries : Table) :
    ofEntries? (without reported entries) = ofEntries? entries ∧
      ∀ other, other ∈ warnings (without reported entries) ↔
        other ∈ warnings entries ∧ other ∉ reported := by
  induction reported generalizing entries with
  | nil => exact ⟨rfl, fun other => by simp [without]⟩
  | cons warning rest ih =>
      obtain ⟨own, unknown⟩ := List.forall_mem_cons.mp unknown
      obtain ⟨same, left⟩ := ih unknown (removeAt warning.within warning.name entries)
      refine ⟨same.trans (ofEntries?_removeAt own entries), fun other => ?_⟩
      rw [without, List.foldl_cons, ← without, left, mem_warnings_removeAt own, List.mem_cons,
        not_or, and_assoc]

/-! ## One more name -/

/-- A table with one more entry, before which so many others stand. -/
def insertEntry (index : Nat) (entry : String × Value) (table : Table) : Table :=
  table.take index ++ entry :: table.drop index

/-- A document with one more name at a place. -/
def addAt (place : Option String) (index : Nat) (name : String) (value : Value) : Table → Table :=
  changeAt (insertEntry index (name, value)) place

/-- Adding a name spares all others. -/
theorem spares_insertEntry {names : List String} (unknown : name ∉ names) (index : Nat)
    (value : Value) : Spares names (insertEntry index (name, value)) := by
  intro table key listed
  have different := ne_of_mem_of_not_mem listed unknown
  rw [insertEntry, List.lookup_append, List.lookup_cons, beq_false_of_ne different]
  dsimp only
  rw [← List.lookup_append, List.take_append_drop]

/-- A table with one more entry has it beside the others, wherever it stands. -/
theorem perm_insertEntry (index : Nat) (entry : String × Value) (table : Table) :
    (insertEntry index entry table).Perm (entry :: table) := by
  have inserted : (insertEntry index entry table).Perm
      (entry :: (table.take index ++ table.drop index)) := List.perm_middle
  rwa [List.take_append_drop] at inserted

/-- A name that is added stands at its place beside the others. -/
theorem perm_namesAt_addAt (present : (tableAt? entries place).isSome) (index : Nat)
    (name : String) (value : Value) :
    (namesAt (addAt place index name value entries) place).Perm
      (name :: namesAt entries place) := by
  obtain ⟨table, found⟩ := Option.isSome_iff_exists.mp present
  rw [namesAt, namesAt, addAt, tableAt?_changeAt, found]
  exact (perm_insertEntry index (name, value) table).map Prod.fst

/-- A further name that no record has as a field is warned about, and all else is as before. -/
theorem perm_warnings_addAt (nodup : ∀ place ∈ places, (namesAt entries place).Nodup)
    (known : place ∈ places) (present : (tableAt? entries place).isSome)
    (fresh : name ∉ namesAt entries place) (unknown : name ∉ fieldsAt place) (index : Nat)
    (value : Value) :
    (warnings (addAt place index name value entries)).Perm
      ({ within := place, name } :: warnings entries) := by
  have own := perm_namesAt_addAt present index name value
  have spares := spares_insertEntry unknown index value
  have fresher : (namesAt (addAt place index name value entries) place).Nodup :=
    own.nodup_iff.mpr (List.nodup_cons.mpr ⟨fresh, nodup place known⟩)
  have absent : { within := place, name } ∉ warnings entries :=
    fun listed => fresh (mem_warnings.mp listed).2.1
  refine (List.perm_ext_iff_of_nodup (nodup_warnings_changeAt spares nodup fresher)
    (List.nodup_cons.mpr ⟨absent, nodup_warnings nodup⟩)).mpr fun warning => ?_
  obtain ⟨within, other⟩ := warning
  rw [List.mem_cons, Warning.mk.injEq, mem_warnings_changeAt spares, ← addAt]
  dsimp only
  split
  case isTrue same =>
    subst same
    rw [own.mem_iff, List.mem_cons, mem_warnings]
    constructor
    · rintro ⟨-, rfl | old, field⟩
      · exact .inl ⟨rfl, rfl⟩
      · exact .inr ⟨known, old, field⟩
    · rintro (⟨-, rfl⟩ | ⟨-, old, field⟩)
      · exact ⟨known, .inl rfl, unknown⟩
      · exact ⟨known, .inr old, field⟩
  case isFalse different =>
    rw [or_iff_right fun same => different same.1]

/-! ## Loading with warnings -/

/-- Both ways of loading a file give the same configuration, or fail alike. -/
theorem config_loadWithWarnings (files : FileSystem) (path : FilePath) :
    (loadWithWarnings files path).map Loaded.config = load files path := by
  rw [loadWithWarnings, load]
  cases files.readText path with
  | error cause => rfl
  | ok text =>
      simp only [Except.mapError, bind, Except.bind]
      cases ofText? text <;> rfl

/-- Both ways of loading from a directory give the same configuration. -/
theorem config_loadOrStandardWithWarnings (files : FileSystem) (directory : FilePath) :
    (loadOrStandardWithWarnings files directory).config = loadOrStandard files directory := by
  rw [loadOrStandardWithWarnings, loadOrStandard]
  cases find? files.exists? directory with
  | none => rfl
  | some path =>
      rw [Option.bind_some, Option.bind_some, ← config_loadWithWarnings]
      cases loadWithWarnings files path <;> rfl

/-- What is loaded is what a document describes, with the warnings about this document. -/
theorem loadWithWarnings_eq_ok_iff {files : FileSystem} {path : FilePath} {loaded : Loaded} :
    loadWithWarnings files path = .ok loaded ↔ ∃ text entries,
      files.readText path = .ok text ∧ Toml.read? text = some entries ∧
        ofEntries? entries = some loaded.config ∧ loaded.warnings = warnings entries := by
  rw [loadWithWarnings]
  constructor
  · intro done
    cases readable : files.readText path with
    | error cause =>
        rw [readable] at done
        cases done
    | ok text =>
        rw [readable] at done
        simp only [Except.mapError, bind, Except.bind] at done
        cases described : ofText? text with
        | none =>
            rw [described] at done
            cases done
        | some config =>
            rw [described] at done
            cases done
            obtain ⟨entries, read, made⟩ := Option.bind_eq_some_iff.mp described
            exact ⟨text, entries, rfl, read, made, by rw [warningsOfText, read]; rfl⟩
  · rintro ⟨text, entries, readable, read, made, about⟩
    have described : ofText? text = some loaded.config := by
      rw [ofText?, read]
      exact made
    have warned : warningsOfText text = loaded.warnings := by
      rw [warningsOfText, read, about]
      rfl
    rw [readable]
    simp only [Except.mapError, bind, Except.bind, described, warned]
    rfl

/-- What it means for the warnings about a document to name exactly what has no effect. -/
structure NamesWithoutEffect (entries : Table) : Prop where
  /-- Warned is about the names at the places that are read that no record there has as a field. -/
  mem_iff : ∀ warning, warning ∈ warnings entries ↔
    warning.within ∈ places ∧ warning.name ∈ namesAt entries warning.within ∧
      warning.name ∉ fieldsAt warning.within
  /-- Each is warned about once, and no two warnings are worded alike. -/
  once : ((warnings entries).map Warning.text).Nodup
  /-- Without them the configuration is the same, and there are no warnings. -/
  removed : ofEntries? (without (warnings entries) entries) = ofEntries? entries ∧
    warnings (without (warnings entries) entries) = []
  /-- With one more the configuration is the same, and there is one more warning. -/
  added : ∀ place ∈ places, ∀ name, (tableAt? entries place).isSome →
    name ∉ namesAt entries place → name ∉ fieldsAt place → ∀ index value,
      ofEntries? (addAt place index name value entries) = ofEntries? entries ∧
        (warnings (addAt place index name value entries)).Perm
          ({ within := place, name } :: warnings entries)

/-- The warnings about a document without repeated names say exactly which of them have no effect.
-/
theorem namesWithoutEffect (distinct : (Value.table entries).Distinct) :
    NamesWithoutEffect entries := by
  have nodup : ∀ place ∈ places, (namesAt entries place).Nodup :=
    fun place _ => nodup_namesAt distinct place
  have unknown : ∀ warning ∈ warnings entries, warning.name ∉ fieldsAt warning.within :=
    fun warning listed => (mem_warnings.mp listed).2.2
  obtain ⟨same, left⟩ := without_reported unknown entries
  exact {
    mem_iff := fun _ => mem_warnings
    once := (nodup_warnings nodup).map_on fun first former second latter =>
      eq_of_text (mem_warnings.mp former).1 (mem_warnings.mp latter).1
    removed := ⟨same, List.eq_nil_iff_forall_not_mem.mpr fun warning listed =>
      have ⟨reported, absent⟩ := (left warning).mp listed
      absent reported⟩
    added := fun place known name present fresh foreign index value =>
      ⟨ofEntries?_changeAt (spares_insertEntry foreign index value) entries,
        perm_warnings_addAt nodup known present fresh foreign index value⟩ }

/-- **Warnings name exactly what has no effect.** With warnings or without, the same files load, to
the same configuration, and the same one is in force for a directory. What is loaded with warnings
is what a document describes and the warnings about this document, and no table of a document has a
name twice. About every such document, warnings name exactly the names at the places that are read
that no record there has as a field, each once; without all of these the configuration is the same
and there are no warnings, and with one more the configuration is the same and there is one more
warning. The fields of the record at a place are the names with an effect there. -/
theorem warnings_name_what_has_no_effect (files : FileSystem) :
    (∀ path, (loadWithWarnings files path).map Loaded.config = load files path) ∧
    (∀ directory,
      (loadOrStandardWithWarnings files directory).config = loadOrStandard files directory) ∧
    (∀ path loaded, loadWithWarnings files path = .ok loaded ↔ ∃ text entries,
      files.readText path = .ok text ∧ Toml.read? text = some entries ∧
        ofEntries? entries = some loaded.config ∧ loaded.warnings = warnings entries) ∧
    (∀ text entries, Toml.read? text = some entries → (Value.table entries).Distinct) ∧
    (∀ entries : Table, (Value.table entries).Distinct → NamesWithoutEffect entries) ∧
    ∀ place ∈ places, ∀ name, HasEffect place name ↔ name ∈ fieldsAt place := by
  refine ⟨?loads, ?standard, ?read, ?distinct, ?named, ?effect⟩
  case loads => exact config_loadWithWarnings files
  case standard => exact config_loadOrStandardWithWarnings files
  case read => exact fun path loaded => loadWithWarnings_eq_ok_iff
  case distinct => exact fun text entries => Toml.distinct_of_read?
  case named => exact fun entries => namesWithoutEffect
  case effect => exact fun place known name => hasEffect_iff known

example : warnings [("shade", .integer 1), ("analyzer", .text "scan"),
    ("server", .table [("org", .table [("url", .integer 2)]), ("branch", .text "main")])] =
      [⟨none, "shade"⟩, ⟨some "server", "org"⟩] := by
  decide +kernel

end IssueRelay.Config
